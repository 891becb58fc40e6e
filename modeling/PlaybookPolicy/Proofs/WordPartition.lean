import PlaybookPolicy.Proofs.WrittenArguments

/-!
# How a text is made of its words

The words of a text are what is left of it without the blanks outside quotes.  The scanner starts
each word with no quote open, and ends it at a blank only while none is open; so a word that is not
the last one closes all its quotes, and a quote that is never closed makes the rest of the text one
word.  Laid out with blanks between them, words of this kind are found again, and a text is laid out
in no other way than as its words.

## Main definitions

* `FreeForm.Tight` — a text has no blank outside quotes.
* `FreeForm.dense` — a text without its blanks outside quotes.
* `FreeForm.Laid` — words are laid out as a text.

## Main results

* `FreeForm.laid_words`, `FreeForm.words_of_laid` — a text is laid out as its words, and only so.
* `FreeForm.words_intercalate` — words that are joined by spaces are found again.
* `FreeForm.words_partition` — **the words of a text partition it.**
-/

namespace PlaybookPolicy.FreeForm

variable {q : Option Char} {c : Char} {w gap l m : List Char} {ws : List (List Char)}

/-! ### Blanks outside quotes -/

/-- Each blank in the text stands where a quote is open, given the quote that is open before it. -/
def Tight (q : Option Char) (l : List Char) : Prop :=
  ∀ before c after, l = before ++ c :: after → Text.isBlank c = true → quoteAfter q before ≠ none

/-- The text without its blanks outside quotes, given the quote that is open before it. -/
def dense (q : Option Char) : List Char → List Char
  | [] => []
  | c :: l =>
    if q = none ∧ Text.isBlank c = true then dense q l else c :: dense (quoteAfter q [c]) l

@[simp] theorem quoteAfter_nil (q : Option Char) : quoteAfter q [] = q := by
  cases q <;> rfl

theorem quoteAfter_cons (q : Option Char) (c : Char) (l : List Char) :
    quoteAfter q (c :: l) = quoteAfter (quoteAfter q [c]) l :=
  quoteAfter_append q [c] l

theorem quoteAfter_none_blanks (h : ∀ c ∈ gap, Text.isBlank c = true) :
    quoteAfter none gap = none :=
  quoteAfter_blanks h (by simp)

theorem quoteAfter_none_blank (h : Text.isBlank c = true) : quoteAfter none [c] = none :=
  quoteAfter_none_blanks (by simpa using h)

theorem tight_nil (q : Option Char) : Tight q [] := by
  intro before c after h
  simp at h

theorem tight_append : Tight q (l ++ m) ↔ Tight q l ∧ Tight (quoteAfter q l) m := by
  constructor
  · intro h
    constructor
    · rintro before c after rfl
      exact h before c (after ++ m) (by simp)
    · rintro before c after rfl hc
      rw [← quoteAfter_append]
      exact h (l ++ before) c after (by simp) hc
  · rintro ⟨hl, hm⟩ before c after h hc
    rcases List.append_eq_append_iff.mp h with ⟨rest, rfl, hrest⟩ | ⟨rest, hl', hrest⟩
    · rw [quoteAfter_append]
      exact hm rest c after hrest hc
    · cases rest with
      | nil =>
        rw [List.append_nil] at hl'
        rw [← hl', ← quoteAfter_nil (quoteAfter q l)]
        exact hm [] c after hrest.symm hc
      | cons d rest =>
        cases hrest
        exact hl before c rest hl' hc

theorem tight_singleton : Tight q [c] ↔ (Text.isBlank c = true → q ≠ none) := by
  constructor
  · intro h hc
    simpa using h [] c [] rfl hc
  · intro h before d after heq hd
    obtain ⟨rfl, rfl, rfl⟩ : before = [] ∧ c = d ∧ after = [] := by
      cases before <;> simp_all
    simpa using h hd

theorem tight_cons :
    Tight q (c :: l) ↔ (Text.isBlank c = true → q ≠ none) ∧ Tight (quoteAfter q [c]) l := by
  rw [← List.singleton_append, tight_append, tight_singleton]

theorem dense_append (q : Option Char) (l m : List Char) :
    dense q (l ++ m) = dense q l ++ dense (quoteAfter q l) m := by
  induction l generalizing q with
  | nil => simp [dense]
  | cons c l ih =>
    rw [List.cons_append, dense, dense, quoteAfter_cons q c l]
    split
    · next h =>
      rw [ih, h.1, quoteAfter_none_blank h.2]
    · rw [ih, List.cons_append]

/-- A text without blanks outside quotes stays as it is. -/
theorem dense_of_tight (h : Tight q l) : dense q l = l := by
  induction l generalizing q with
  | nil => rfl
  | cons c l ih =>
    rw [tight_cons] at h
    rw [dense, if_neg fun hc => h.1 hc.2 hc.1, ih h.2]

theorem dense_blanks (h : ∀ c ∈ gap, Text.isBlank c = true) : dense none gap = [] := by
  induction gap with
  | nil => rfl
  | cons c gap ih =>
    rw [List.forall_mem_cons] at h
    rw [dense, if_pos ⟨rfl, h.1⟩, ih h.2]

/-! ### The scanner -/

theorem wordsFrom_nil (q : Option Char) (w : List Char) : wordsFrom q w [] = finish w := by
  cases q <;> rfl

/-- The scanner takes a text without blanks outside quotes as part of the pending word. -/
theorem wordsFrom_append_of_tight (h : Tight q l) :
    wordsFrom q w (l ++ m) = wordsFrom (quoteAfter q l) (l.reverse ++ w) m := by
  induction l generalizing q w with
  | nil => simp
  | cons c l ih =>
    rw [tight_cons] at h
    obtain ⟨hc, hl⟩ := h
    have hrest : wordsFrom (quoteAfter q [c]) (c :: w) (l ++ m) =
        wordsFrom (quoteAfter q (c :: l)) ((c :: l).reverse ++ w) m := by
      rw [ih hl, quoteAfter_cons q c l, List.reverse_cons, List.append_assoc, List.singleton_append]
    rw [← hrest, List.cons_append]
    cases q with
    | some q => rw [wordsFrom, quoteAfter, quoteAfter_nil]
    | none =>
      rw [wordsFrom, quoteAfter, quoteAfter_nil]
      split
      · rfl
      · rw [if_neg fun hblank => hc hblank rfl]

/-! ### Layouts -/

/-- The text lays out the words: they stand in it in order, each without a blank outside quotes,
with blanks around them, and with at least one behind each that is not at the end of the text.  A
word with a blank behind it has closed its quotes. -/
inductive Laid : List (List Char) → List Char → Prop
  /-- There are no words, but only blanks. -/
  | blanks {gap : List Char} (hgap : ∀ c ∈ gap, Text.isBlank c = true) : Laid [] gap
  /-- The text ends with its last word. -/
  | last {gap w : List Char} (hgap : ∀ c ∈ gap, Text.isBlank c = true) (hne : w ≠ [])
    (hw : Tight none w) : Laid [w] (gap ++ w)
  /-- A blank ends a word. -/
  | cons {gap w l : List Char} {c : Char} {ws : List (List Char)}
    (hgap : ∀ c ∈ gap, Text.isBlank c = true) (hne : w ≠ []) (hw : Tight none w)
    (hclosed : quoteAfter none w = none) (hc : Text.isBlank c = true) (hl : Laid ws l) :
    Laid (w :: ws) (gap ++ (w ++ c :: l))

/-- Blanks may be put before a text. -/
theorem Laid.blank_cons (hc : Text.isBlank c = true) (h : Laid ws l) : Laid ws (c :: l) := by
  have hcons : ∀ {gap : List Char}, (∀ c ∈ gap, Text.isBlank c = true) →
      ∀ d ∈ c :: gap, Text.isBlank d = true :=
    fun hgap => List.forall_mem_cons.mpr ⟨hc, hgap⟩
  cases h with
  | blanks hgap => exact .blanks (hcons hgap)
  | last hgap hne hw => exact .last (hcons hgap) hne hw
  | cons hgap hne hw hclosed hd hl => exact .cons (hcons hgap) hne hw hclosed hd hl

/-- The words that the scanner still finds are laid out by the pending word and the text behind
it. -/
theorem laid_wordsFrom : ∀ (l w : List Char), Tight none w →
    Laid (wordsFrom (quoteAfter none w) w.reverse l) (w ++ l) := by
  intro l
  induction l with
  | nil =>
    intro w hw
    rw [wordsFrom_nil, List.append_nil]
    by_cases hne : w = []
    · subst hne
      exact .blanks (List.forall_mem_nil _)
    · rw [finish_reverse hne]
      exact .last (List.forall_mem_nil _) hne hw
  | cons c l ih =>
    intro w hw
    by_cases hgap : Text.isBlank c = true ∧ quoteAfter none w = none
    · -- the blank ends the pending word, if it has begun
      obtain ⟨hc, hclosed⟩ := hgap
      have hrest : Laid (wordsFrom none [] l) l := ih [] (tight_nil none)
      rw [hclosed, wordsFrom, isQuote_of_isBlank hc, if_neg Bool.false_ne_true, if_pos hc]
      by_cases hne : w = []
      · subst hne
        exact hrest.blank_cons hc
      · rw [finish_reverse hne]
        exact .cons (List.forall_mem_nil _) hne hw hclosed hc hrest
    · -- any other character goes on with it
      have hc : Tight (quoteAfter none w) [c] := tight_singleton.mpr fun hc hq => hgap ⟨hc, hq⟩
      have hlonger := ih (w ++ [c]) (tight_append.mpr ⟨hw, hc⟩)
      rw [quoteAfter_append, List.reverse_append, List.append_assoc] at hlonger
      rw [← List.singleton_append, wordsFrom_append_of_tight hc]
      exact hlonger

/-- **A text is laid out as its words.** -/
theorem laid_words (l : List Char) : Laid (words l) l :=
  laid_wordsFrom l [] (tight_nil none)

/-- **A text is laid out in no other way than as its words.** -/
theorem words_of_laid (h : Laid ws l) : words l = ws := by
  induction h with
  | blanks hgap => exact wordsFrom_blanks hgap []
  | @last gap w hgap hne hw =>
    rw [words_append_of_blank hgap, ← List.append_nil w, words, wordsFrom_append_of_tight hw,
      List.append_nil, List.append_nil, wordsFrom_nil, finish_reverse hne]
  | @cons gap w l c ws hgap hne hw hclosed hc hl ih =>
    rw [words_append_of_blank hgap, words, wordsFrom_append_of_tight hw, hclosed, List.append_nil,
      wordsFrom, isQuote_of_isBlank hc, if_neg Bool.false_ne_true, if_pos hc, finish_reverse hne,
      List.singleton_append]
    exact congrArg _ ih

namespace Laid

theorem ne_nil (h : Laid ws l) : ∀ w ∈ ws, w ≠ [] := by
  induction h with
  | blanks hgap => simp
  | last hgap hne hw => simpa using hne
  | cons hgap hne hw hclosed hc hl ih => exact List.forall_mem_cons.mpr ⟨hne, ih⟩

theorem tight (h : Laid ws l) : ∀ w ∈ ws, Tight none w := by
  induction h with
  | blanks hgap => simp
  | last hgap hne hw => simpa using hw
  | cons hgap hne hw hclosed hc hl ih => exact List.forall_mem_cons.mpr ⟨hw, ih⟩

/-- Only the last word may leave a quote open. -/
theorem closed (h : Laid ws l) : ∀ w ∈ ws.dropLast, quoteAfter none w = none := by
  induction h with
  | blanks hgap => simp
  | last hgap hne hw => simp
  | @cons gap w l c ws hgap hne hw hclosed hc hl ih =>
    cases ws with
    | nil => simp
    | cons w' ws =>
      rw [List.dropLast_cons_cons]
      exact List.forall_mem_cons.mpr ⟨hclosed, ih⟩

/-- The words hold all of the text but its blanks outside quotes. -/
theorem flatten (h : Laid ws l) : ws.flatten = dense none l := by
  induction h with
  | blanks hgap => rw [dense_blanks hgap, List.flatten_nil]
  | last hgap hne hw =>
    rw [dense_append, dense_blanks hgap, quoteAfter_none_blanks hgap, dense_of_tight hw]
    simp
  | cons hgap hne hw hclosed hc hl ih =>
    rw [dense_append, dense_blanks hgap, quoteAfter_none_blanks hgap, dense_append,
      dense_of_tight hw, hclosed, dense, if_pos ⟨rfl, hc⟩, ← ih, List.flatten_cons,
      List.nil_append]

/-- Words that may be laid out are so with single spaces between them. -/
theorem of_intercalate (hne : ∀ w ∈ ws, w ≠ []) (hw : ∀ w ∈ ws, Tight none w)
    (hclosed : ∀ w ∈ ws.dropLast, quoteAfter none w = none) : Laid ws ([' '].intercalate ws) := by
  induction ws with
  | nil => exact .blanks (List.forall_mem_nil _)
  | cons w ws ih =>
    rw [List.forall_mem_cons] at hne hw
    cases ws with
    | nil =>
      have hlast : [' '].intercalate [w] = [] ++ w := by simp
      rw [hlast]
      exact .last (List.forall_mem_nil _) hne.1 hw.1
    | cons w' ws =>
      rw [List.dropLast_cons_cons, List.forall_mem_cons] at hclosed
      have hrest := ih hne.2 hw.2 hclosed.2
      exact .cons (List.forall_mem_nil _) hne.1 hw.1 hclosed.1 (by decide) hrest

end Laid

/-- **Words that are joined by spaces are found again**, as long as only the last one leaves a quote
open. -/
theorem words_intercalate (hne : ∀ w ∈ ws, w ≠ []) (hw : ∀ w ∈ ws, Tight none w)
    (hclosed : ∀ w ∈ ws.dropLast, quoteAfter none w = none) :
    words ([' '].intercalate ws) = ws :=
  words_of_laid (.of_intercalate hne hw hclosed)

/-- **The words of a text partition it.**  No word is empty; every word but the last closes all
quotes that it opens; no word has a blank outside its quotes; all words together are the text
without its blanks outside quotes; and with single spaces between them, the words are found again.
They are the only words as which the text is laid out. -/
theorem words_partition : ∀ l : List Char,
    (∀ w ∈ words l, w ≠ []) ∧
    (∀ w ∈ (words l).dropLast, quoteAfter none w = none) ∧
    (∀ w ∈ words l, Tight none w) ∧
    (words l).flatten = dense none l ∧
    words ([' '].intercalate (words l)) = words l ∧
    ∀ ws, words l = ws ↔ Laid ws l := by
  intro l
  have h := laid_words l
  refine ⟨h.ne_nil, h.closed, h.tight, h.flatten, words_intercalate h.ne_nil h.tight h.closed, ?_⟩
  intro ws
  constructor
  · rintro rfl
    exact h
  · exact words_of_laid

example : words "a=' b\"'c  \"d e".toList = ["a=' b\"'c".toList, "\"d e".toList] := by decide

end PlaybookPolicy.FreeForm
