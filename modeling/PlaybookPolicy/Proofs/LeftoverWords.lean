import PlaybookPolicy.Proofs.WordPartition

/-!
# Assignments and leftover words

The words of a text that assign nothing are kept together, joined by single spaces.  Leaving out the
assignments between them does no harm: of all words of a text only the last one may leave a quote
open, and where it is left out all others have closed theirs.  So the leftover words are found again
in the text that they are joined to, none of them becomes an assignment there, and that text writes
itself.  An assignment counts unless a later one has its key.

## Main definitions

* `FreeForm.AssignsNothing` — a word is of no such form as `key=value`.
* `FreeForm.LastAssigns` — the last word with the key gives it the value.
* `FreeForm.leftoverWords`, `FreeForm.leftoverText` — the words of a text that assign nothing, and
  how they are kept.

## Main results

* `FreeForm.words_intercalate_of_sublist` — some words of a text that are joined by spaces are found
  again.
* `FreeForm.get?_ofList_assignments` — the last assignment to a key counts.
* `FreeForm.parse_exact` — **which arguments a text writes.**
-/

namespace PlaybookPolicy.FreeForm

variable {w l value : List Char} {ws raw : List (List Char)} {k : String} {v : Yaml.Value}

/-! ### Words that assign nothing -/

/-- The word is not of the form `key=value`. -/
def AssignsNothing (w : List Char) : Prop :=
  ∀ key value, ¬Assigns w key value

theorem assignment?_eq_none_iff : assignment? w = none ↔ AssignsNothing w := by
  rw [Option.eq_none_iff_forall_ne_some, Prod.forall]
  exact forall₂_congr fun key value => not_congr assignment?_eq_some_iff

instance : DecidablePred AssignsNothing :=
  fun _ => decidable_of_iff _ assignment?_eq_none_iff

/-- The words of a text that assign nothing, in order. -/
def leftoverWords (s : String) : List (List Char) :=
  (words s.toList).filter fun w => AssignsNothing w

/-- The words of a text that assign nothing, joined by single spaces. -/
def leftoverText (s : String) : String :=
  String.ofList ([' '].intercalate (leftoverWords s))

theorem leftovers_eq_filter (ws : List (List Char)) :
    leftovers ws = ws.filter fun w => AssignsNothing w := by
  refine List.filter_congr fun w _ => ?_
  rw [Bool.eq_iff_iff, Option.isNone_iff_eq_none, assignment?_eq_none_iff, decide_eq_true_iff]

theorem assignsNothing_of_mem_leftoverWords {s : String} (h : w ∈ leftoverWords s) :
    AssignsNothing w :=
  of_decide_eq_true (List.mem_filter.mp h).2

/-! ### Joining leftover words -/

theorem dropLast_sublist_dropLast {α : Type} {l₁ l₂ : List α} (h : l₁.Sublist l₂) :
    l₁.dropLast.Sublist l₂.dropLast := by
  rw [← List.reverse_sublist, ← List.tail_reverse, ← List.tail_reverse]
  exact (List.reverse_sublist.mpr h).tail

/-- **Some words of a text that are joined by spaces are found again.**  A word that is not the last
one of them is not the last one of the text either, so it has closed its quotes. -/
theorem words_intercalate_of_sublist (h : raw.Sublist (words l)) :
    words ([' '].intercalate raw) = raw := by
  have hlaid := laid_words l
  have hne : ∀ w ∈ raw, w ≠ [] := fun w hw => hlaid.ne_nil w (h.mem hw)
  have htight : ∀ w ∈ raw, Tight none w := fun w hw => hlaid.tight w (h.mem hw)
  have hclosed : ∀ w ∈ raw.dropLast, quoteAfter none w = none :=
    fun w hw => hlaid.closed w ((dropLast_sublist_dropLast h).mem hw)
  exact words_intercalate hne htight hclosed

theorem words_leftoverText (s : String) : words (leftoverText s).toList = leftoverWords s := by
  rw [leftoverText, String.toList_ofList]
  exact words_intercalate_of_sublist List.filter_sublist

/-- No leftover word becomes an assignment by being joined to others. -/
theorem leftoverWords_leftoverText (s : String) :
    leftoverWords (leftoverText s) = leftoverWords s := by
  rw [leftoverWords, words_leftoverText, List.filter_eq_self]
  intro w hw
  exact decide_eq_true (assignsNothing_of_mem_leftoverWords hw)

/-! ### The last assignment to a key -/

/-- The last of the words that assign to the key gives it the value. -/
def LastAssigns (ws : List (List Char)) (key value : List Char) : Prop :=
  ∃ before w after, ws = before ++ w :: after ∧ Assigns w key value ∧
    ∀ w' ∈ after, ∀ value', ¬Assigns w' key value'

/-- What a word adds to the arguments. -/
theorem map_assignment?_eq_some_iff :
    ((assignment? w).map fun (key, value) =>
      (String.ofList key, Yaml.Value.text (String.ofList (Text.unquote value)))) = some (k, v) ↔
      ∃ value, Assigns w k.toList value ∧ v = .text (String.ofList (Text.unquote value)) := by
  rw [Option.map_eq_some_iff]
  constructor
  · rintro ⟨⟨key, value⟩, hw, heq⟩
    cases heq
    rw [String.toList_ofList]
    exact ⟨value, assignment?_eq_some_iff.mp hw, rfl⟩
  · rintro ⟨value, hw, rfl⟩
    exact ⟨(k.toList, value), assignment?_eq_some_iff.mpr hw, by simp⟩

theorem mem_assignments_iff :
    (k, v) ∈ assignments ws ↔
      ∃ w ∈ ws, ∃ value, Assigns w k.toList value ∧
        v = .text (String.ofList (Text.unquote value)) := by
  rw [assignments, List.mem_filterMap]
  exact exists_congr fun w => and_congr_right fun _ => map_assignment?_eq_some_iff

theorem assignments_append (ws ws' : List (List Char)) :
    assignments (ws ++ ws') = assignments ws ++ assignments ws' :=
  List.filterMap_append

theorem assignments_cons_of_assigns (h : Assigns w k.toList value) :
    assignments (w :: ws) = (k, .text (String.ofList (Text.unquote value))) :: assignments ws :=
  List.filterMap_cons_some (map_assignment?_eq_some_iff.mpr ⟨value, h, rfl⟩)

/-- **The last assignment to a key counts.** -/
theorem get?_ofList_assignments :
    (TextMap.ofList (assignments ws)).get? k = some v ↔
      ∃ value, LastAssigns ws k.toList value ∧ v = .text (String.ofList (Text.unquote value)) := by
  rw [TextMap.get?_ofList_eq_some_iff_last]
  constructor
  · rintro ⟨before, after, hws, hafter⟩
    -- the words are cut at the one that gives the entry
    obtain ⟨ws₁, ws₂, rfl, -, hws₂⟩ := List.filterMap_eq_append_iff.mp hws
    obtain ⟨gap, w, ws₃, rfl, -, hw, rfl⟩ := List.filterMap_eq_cons_iff.mp hws₂
    obtain ⟨value, hvalue, rfl⟩ := map_assignment?_eq_some_iff.mp hw
    refine ⟨value, ⟨ws₁ ++ gap, w, ws₃, (List.append_assoc ..).symm, hvalue, ?_⟩, rfl⟩
    intro w' hw' value' hassigns
    exact hafter _ (mem_assignments_iff.mpr ⟨w', hw', value', hassigns, rfl⟩) rfl
  · rintro ⟨value, ⟨before, w, after, rfl, hw, hafter⟩, rfl⟩
    refine ⟨assignments before, assignments after, ?_, ?_⟩
    · rw [assignments_append, assignments_cons_of_assigns hw]
    · rintro ⟨k', v⟩ he rfl
      obtain ⟨w', hw', value', hassigns, -⟩ := mem_assignments_iff.mp he
      exact hafter w' hw' value' hassigns

theorem get?_ofList_assignments_eq_none_iff :
    (TextMap.ofList (assignments ws)).get? k = none ↔
      ∀ w ∈ ws, ∀ value, ¬Assigns w k.toList value := by
  rw [TextMap.get?_ofList_eq_none_iff]
  constructor
  · intro h w hw value hassigns
    exact h _ (mem_assignments_iff.mpr ⟨w, hw, value, hassigns, rfl⟩)
  · intro h v hv
    obtain ⟨w, hw, value, hassigns, -⟩ := mem_assignments_iff.mp hv
    exact h w hw value hassigns

/-- Leftover words assign nothing. -/
theorem assignments_leftoverWords (s : String) : assignments (leftoverWords s) = [] := by
  rw [List.eq_nil_iff_forall_not_mem]
  rintro ⟨k, v⟩ he
  obtain ⟨w, hw, value, hassigns, -⟩ := mem_assignments_iff.mp he
  exact assignsNothing_of_mem_leftoverWords hw _ value hassigns

/-! ### What a text writes -/

theorem parse_of_leftoverWords {s : String} (h : leftoverWords s ≠ []) :
    parse s = (TextMap.ofList (assignments (words s.toList))).insert rawKey
      (.text (leftoverText s)) := by
  have hraw : (leftoverWords s).isEmpty = false := List.isEmpty_eq_false_iff.mpr h
  rw [parse, leftovers_eq_filter, ← leftoverWords, hraw]
  rfl

theorem parse_of_leftoverWords_eq_nil {s : String} (h : leftoverWords s = []) :
    parse s = TextMap.ofList (assignments (words s.toList)) := by
  rw [parse, leftovers_eq_filter, ← leftoverWords, h]
  rfl

theorem get?_parse {s : String} (h : k ≠ rawKey ∨ leftoverWords s = []) :
    (parse s).get? k = (TextMap.ofList (assignments (words s.toList))).get? k := by
  by_cases hraw : leftoverWords s = []
  · rw [parse_of_leftoverWords_eq_nil hraw]
  · rw [parse_of_leftoverWords hraw, TextMap.get?_insert_of_ne _ _ (h.resolve_right hraw)]

/-- The text of leftover words writes itself, and nothing else. -/
theorem parse_leftoverText {s : String} (h : leftoverWords s ≠ []) :
    (parse (leftoverText s)).entries = [(rawKey, .text (leftoverText s))] := by
  have htext : leftoverText (leftoverText s) = leftoverText s := by
    rw [leftoverText, leftoverWords_leftoverText, ← leftoverText]
  rw [← leftoverWords_leftoverText] at h
  rw [parse_of_leftoverWords h, words_leftoverText, assignments_leftoverWords, htext]
  rfl

/-- **Which arguments a text writes.**  If there are words that assign nothing, the text has them
under the raw key, in order and joined by single spaces.  Read by itself that text has the same
words, and it writes itself as the only argument.  Every other key is an argument if a word assigns
to it, with what the last such word gives to it less a pair of quotes; and so is the raw key if
every word assigns something. -/
theorem parse_exact (s : String) :
    (leftoverWords s ≠ [] →
      (parse s).get? rawKey = some (.text (leftoverText s)) ∧
        words (leftoverText s).toList = leftoverWords s ∧
          (parse (leftoverText s)).entries = [(rawKey, .text (leftoverText s))]) ∧
    ∀ k, k ≠ rawKey ∨ leftoverWords s = [] →
      ((parse s).get? k ≠ none ↔ ∃ w ∈ words s.toList, ∃ value, Assigns w k.toList value) ∧
      ∀ v, (parse s).get? k = some v ↔
        ∃ value l, LastAssigns (words s.toList) k.toList value ∧ Text.Unquotes value l ∧
          v = .text (String.ofList l) := by
  constructor
  · intro hraw
    refine ⟨?_, words_leftoverText s, parse_leftoverText hraw⟩
    rw [parse_of_leftoverWords hraw, TextMap.get?_insert_self]
  · intro k hk
    rw [get?_parse hk]
    refine ⟨?_, fun v => ?_⟩
    · rw [Ne, get?_ofList_assignments_eq_none_iff]
      simp only [not_forall, not_not, exists_prop]
    · rw [get?_ofList_assignments]
      constructor
      · rintro ⟨value, hlast, rfl⟩
        exact ⟨value, Text.unquote value, hlast, Text.unquote_eq_iff.mp rfl, rfl⟩
      · rintro ⟨value, l, hlast, hl, rfl⟩
        rw [← Text.unquote_eq_iff.mpr hl]
        exact ⟨value, hlast, rfl⟩

/-- Two assignments to one key stand between words that assign nothing.  One of these holds an
assignment in quotes, and the last one leaves a quote open. -/
def mixedText : String :=
  "say a=1 'b  c=2'  a=\"x  y\" \"d  e=3"

theorem parse_exact_mixedText :
    leftoverWords mixedText ≠ [] ∧ leftoverText mixedText = "say 'b  c=2' \"d  e=3" ∧
      (parse mixedText).get? rawKey = some (.text (leftoverText mixedText)) ∧
      (parse (leftoverText mixedText)).entries = [(rawKey, .text (leftoverText mixedText))] ∧
      "a" ≠ rawKey ∧ (parse mixedText).get? "a" = some (.text "x  y") := by
  have hne : leftoverWords mixedText ≠ [] := by decide
  have ha : "a" ≠ rawKey := by decide
  obtain ⟨hraw, -, hself⟩ := (parse_exact mixedText).1 hne
  have hlast : LastAssigns (words mixedText.toList) "a".toList "\"x  y\"".toList := by
    refine ⟨["say".toList, "a=1".toList, "'b  c=2'".toList], "a=\"x  y\"".toList,
      ["\"d  e=3".toList], by decide,
      ⟨by decide, by decide, List.all_eq_true.mp (by decide)⟩, ?_⟩
    have hafter : ∀ w ∈ ["\"d  e=3".toList], AssignsNothing w := by decide
    exact fun w hw value => hafter w hw _ value
  have hunquotes : Text.Unquotes "\"x  y\"".toList "x  y".toList :=
    Text.unquote_eq_iff.mp (by decide)
  have hvalue := ((parse_exact mixedText).2 "a" (.inl ha)).2 (.text "x  y")
  exact ⟨hne, by decide, hraw, hself, ha,
    hvalue.mpr ⟨_, _, hlast, hunquotes, by rw [String.ofList_toList]⟩⟩

end PlaybookPolicy.FreeForm
