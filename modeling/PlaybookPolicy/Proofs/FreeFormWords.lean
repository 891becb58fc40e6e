import PlaybookPolicy.Proofs.Trimming
import PlaybookPolicy.Task.FreeForm

/-!
# Words and open quotes

A blank ends a word unless a quote is open.  So the blanks at the end of a text write no word, and
do not belong to one either, as long as every quote before them is closed.

## Main definitions

* `FreeForm.quoteAfter` — the quote that is open behind a text.

## Main results

* `FreeForm.wordsFrom_append_of_closed` — blanks behind closed quotes do not count.
* `FreeForm.words_trimEnd` — **the end of a text may be trimmed.**
-/

namespace PlaybookPolicy.FreeForm

/-- The quote that is open behind a text, given the one that is open before it.  A quote is closed
by its like, and what stands between them opens none. -/
def quoteAfter : Option Char → List Char → Option Char
  | q, [] => q
  | some q, c :: l => quoteAfter (if c = q then none else some q) l
  | none, c :: l => quoteAfter (if Text.isQuote c then some c else none) l

theorem isQuote_of_isBlank {c : Char} (h : Text.isBlank c = true) : Text.isQuote c = false := by
  cases hc : Text.isQuote c with
  | false => rfl
  | true =>
    simp only [Text.isQuote, Bool.or_eq_true, beq_iff_eq] at hc
    rcases hc with rfl | rfl
    · revert h
      decide
    · revert h
      decide

/-- The pending word is kept with its last character first. -/
theorem finish_reverse {word : List Char} (h : word ≠ []) : finish word.reverse = [word] := by
  rw [finish, if_neg (by simpa using h), List.reverse_reverse]

/-- Blanks alone hold no word, and end the one that is pending. -/
theorem wordsFrom_blanks : ∀ {l : List Char}, (∀ c ∈ l, Text.isBlank c = true) →
    ∀ word, wordsFrom none word l = finish word := by
  intro l
  induction l with
  | nil =>
    intro _ word
    rfl
  | cons c l ih =>
    intro h word
    rw [List.forall_mem_cons] at h
    rw [wordsFrom, isQuote_of_isBlank h.1, if_neg Bool.false_ne_true, if_pos h.1, ih h.2]
    exact List.append_nil _

/-- **Blanks behind closed quotes do not count**, whatever quote and word the text begins in. -/
theorem wordsFrom_append_of_closed {b : List Char} (hb : ∀ c ∈ b, Text.isBlank c = true)
    (l : List Char) : ∀ q word, quoteAfter q l = none →
      wordsFrom q word (l ++ b) = wordsFrom q word l := by
  -- the quote that is open and the next character decide what the scanner does; the pending word
  -- is carried along
  induction l with
  | nil =>
    intro q word hq
    have hnone : q = none := hq
    rw [hnone, List.nil_append, wordsFrom_blanks hb]
    rfl
  | cons c l ih =>
    intro q word hq
    rw [List.cons_append]
    cases q with
    | some q =>
      rw [wordsFrom, wordsFrom]
      exact ih _ _ hq
    | none =>
      rw [quoteAfter] at hq
      rw [wordsFrom, wordsFrom]
      split
      · next hc =>
        rw [if_pos hc] at hq
        exact ih _ _ hq
      · next hc =>
        rw [if_neg hc] at hq
        split
        · rw [ih _ _ hq]
        · exact ih _ _ hq

/-! ### The end of a text -/

theorem quoteAfter_append (q : Option Char) (l m : List Char) :
    quoteAfter q (l ++ m) = quoteAfter (quoteAfter q l) m := by
  induction l generalizing q with
  | nil =>
    cases q <;> rfl
  | cons c l ih =>
    rw [List.cons_append]
    cases q with
    | some q =>
      rw [quoteAfter, quoteAfter]
      exact ih _
    | none =>
      rw [quoteAfter, quoteAfter]
      exact ih _

/-- Only quotes are open. -/
theorem isQuote_of_quoteAfter {l : List Char} :
    ∀ {q : Option Char}, (∀ c ∈ q, Text.isQuote c = true) →
      ∀ c ∈ quoteAfter q l, Text.isQuote c = true := by
  induction l with
  | nil =>
    intro q hq
    cases q <;> exact hq
  | cons c l ih =>
    intro q hq
    cases q with
    | some q =>
      rw [quoteAfter]
      refine ih fun d hd => ?_
      split at hd
      · cases hd
      · exact hq d hd
    | none =>
      rw [quoteAfter]
      refine ih fun d hd => ?_
      split at hd
      · next hc =>
        cases hd
        exact hc
      · cases hd

/-- Blanks neither open nor close a quote. -/
theorem quoteAfter_blanks {b : List Char} (hb : ∀ c ∈ b, Text.isBlank c = true) {q : Option Char}
    (hq : ∀ c ∈ q, Text.isQuote c = true) : quoteAfter q b = q := by
  induction b with
  | nil =>
    cases q <;> rfl
  | cons c b ih =>
    rw [List.forall_mem_cons] at hb
    have hquote := isQuote_of_isBlank hb.1
    cases q with
    | some q =>
      have hne : c ≠ q := by
        intro heq
        rw [heq, hq q rfl] at hquote
        cases hquote
      rw [quoteAfter, if_neg hne]
      exact ih hb.2
    | none =>
      rw [quoteAfter, hquote, if_neg Bool.false_ne_true]
      exact ih hb.2

/-- **The end of a text may be trimmed** if no quote is open there, or if there is nothing to
trim. -/
theorem words_trimEnd {l : List Char}
    (h : (∀ c, l.getLast? = some c → Text.isBlank c = false) ∨ quoteAfter none l = none) :
    words (Text.trimEnd l) = words l := by
  rcases h with h | h
  · rw [Text.trimEnd_eq_self h]
  · obtain ⟨b, hb, hl⟩ := Text.exists_append_trimEnd l
    have hclosed : quoteAfter none (Text.trimEnd l) = none := by
      have hquote : ∀ c ∈ quoteAfter none (Text.trimEnd l), Text.isQuote c = true :=
        isQuote_of_quoteAfter (by simp)
      rw [hl, quoteAfter_append, quoteAfter_blanks hb hquote] at h
      exact h
    have hwords := wordsFrom_append_of_closed hb (Text.trimEnd l) none [] hclosed
    rw [← hl] at hwords
    exact hwords.symm

theorem parse_trimEnd {s : String}
    (h : (∀ c, s.toList.getLast? = some c → Text.isBlank c = false) ∨
      quoteAfter none s.toList = none) :
    parse (String.ofList (Text.trimEnd s.toList)) = parse s := by
  unfold parse
  rw [String.toList_ofList, words_trimEnd h]

end PlaybookPolicy.FreeForm
