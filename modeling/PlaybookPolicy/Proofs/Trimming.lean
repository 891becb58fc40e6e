import Mathlib.Data.List.DropRight
import PlaybookPolicy.Text.Blank

/-!
# Trimming

What trimming a text leaves: every character that is no blank, and whatever stands between two of
them.

## Main results

* `mem_trim` — a character that is no blank stays.
* `trim_cons` — a first character that is no blank stays the first.
* `trimEnd_append` — the end of a text is that of its last part, unless it holds blanks only.
* `exists_append_trimStart`, `exists_append_trimEnd` — what is trimmed off are blanks.
* `trim_cases` — what trimming leaves, if anything, begins with a character that is no blank.
* `trim_trim`, `trim_map` — trimming again changes nothing, and other letters make no difference.
* `trimmed_eq_empty_iff` — a text is empty after trimming exactly if it holds blanks only.
-/

namespace PlaybookPolicy.Text

/-- Blanks before a text are trimmed with those that it begins with. -/
theorem trimStart_append {b : List Char} (h : ∀ c ∈ b, isBlank c = true) (l : List Char) :
    trimStart (b ++ l) = trimStart l := by
  rw [trimStart, trimStart, List.dropWhile_append_of_pos h]

/-- What is trimmed off the front are blanks. -/
theorem exists_append_trimStart (l : List Char) :
    ∃ b, (∀ c ∈ b, isBlank c = true) ∧ l = b ++ trimStart l := by
  refine ⟨l.takeWhile isBlank, ?_, ?_⟩
  · intro c hc
    exact List.mem_takeWhile_imp hc
  · rw [trimStart, List.takeWhile_append_dropWhile]

theorem trimEnd_cons (c : Char) (l : List Char) :
    trimEnd (c :: l) = if (trimEnd l).isEmpty && isBlank c then [] else c :: trimEnd l := by
  simp only [trimEnd, List.reverse_cons, List.dropWhile_append, List.isEmpty_reverse]
  cases hl : (l.reverse.dropWhile isBlank).isEmpty with
  | false => simp
  | true =>
    rw [List.isEmpty_iff] at hl
    cases hc : isBlank c <;> simp [hl, hc]

/-- The end of a text is that of its last part, unless the last part holds blanks only. -/
theorem trimEnd_append (l m : List Char) :
    trimEnd (l ++ m) = if (trimEnd m).isEmpty then trimEnd l else l ++ trimEnd m := by
  unfold trimEnd
  rw [List.reverse_append, List.dropWhile_append, List.isEmpty_reverse]
  split
  · rfl
  · rw [List.reverse_append, List.reverse_reverse]

/-- What is trimmed off the end are blanks. -/
theorem exists_append_trimEnd (l : List Char) :
    ∃ b, (∀ c ∈ b, isBlank c = true) ∧ l = trimEnd l ++ b := by
  refine ⟨(l.reverse.takeWhile isBlank).reverse, ?_, ?_⟩
  · intro c hc
    exact List.mem_takeWhile_imp (List.mem_reverse.mp hc)
  · rw [trimEnd, ← List.reverse_append, List.takeWhile_append_dropWhile, List.reverse_reverse]

/-- A text that does not end in a blank stays as it is. -/
theorem trimEnd_eq_self {l : List Char} (h : ∀ c, l.getLast? = some c → isBlank c = false) :
    trimEnd l = l := by
  have hhead : ∀ c ∈ l.reverse.head?, ¬isBlank c = true := by
    intro c hc
    rw [List.head?_reverse] at hc
    simp [h c hc]
  unfold trimEnd
  cases hl : l.reverse with
  | nil =>
    rw [List.reverse_eq_nil_iff] at hl
    rw [hl]
    rfl
  | cons c r =>
    rw [hl] at hhead
    rw [List.dropWhile_cons_of_neg (hhead c rfl), ← hl, List.reverse_reverse]

/-- A first character that is no blank stays the first. -/
theorem trim_cons {c : Char} (h : isBlank c = false) (l : List Char) :
    trim (c :: l) = c :: trimEnd l := by
  rw [trim, trimStart, List.dropWhile_cons_of_neg (by simp [h]), trimEnd_cons]
  simp [h]

theorem mem_trimEnd {c : Char} (h : isBlank c = false) {l : List Char} (hc : c ∈ l) :
    c ∈ trimEnd l := by
  induction l with
  | nil => cases hc
  | cons a l ih =>
    rw [trimEnd_cons]
    rcases List.mem_cons.mp hc with rfl | hc
    · simp [h]
    · have hmem := ih hc
      have hne : (trimEnd l).isEmpty = false := by
        rw [List.isEmpty_eq_false_iff]
        exact List.ne_nil_of_mem hmem
      simp [hne, hmem]

/-- A character that is no blank stays. -/
theorem mem_trim {c : Char} (h : isBlank c = false) {l : List Char} (hc : c ∈ l) :
    c ∈ trim l := by
  refine mem_trimEnd h ?_
  rw [← List.takeWhile_append_dropWhile (p := isBlank) (l := l), List.mem_append] at hc
  rcases hc with hc | hc
  · rw [List.mem_takeWhile_imp hc] at h
    cases h
  · exact hc

/-! ### Trimming again -/

theorem trimEnd_trimEnd (l : List Char) : trimEnd (trimEnd l) = trimEnd l := by
  unfold trimEnd
  rw [List.reverse_reverse, List.dropWhile_idempotent]

/-- What trimming leaves, if anything, begins with a character that is no blank. -/
theorem trim_cases (l : List Char) :
    trim l = [] ∨ ∃ c r, isBlank c = false ∧ trim l = c :: trimEnd r := by
  cases hl : l.dropWhile isBlank with
  | nil =>
    rw [trim, trimStart, hl]
    exact .inl rfl
  | cons c r =>
    have hc : isBlank c = false := by
      have hhead := List.head?_dropWhile_not isBlank l
      rw [hl] at hhead
      simpa using hhead
    refine .inr ⟨c, r, hc, ?_⟩
    rw [trim, trimStart, hl, trimEnd_cons, hc, Bool.and_false, if_neg Bool.false_ne_true]

/-- What trimming leaves is not trimmed any further. -/
theorem trim_trim (l : List Char) : trim (trim l) = trim l := by
  rcases trim_cases l with hl | ⟨c, r, hc, hl⟩
  · rw [hl, trim_nil]
  · rw [hl, trim_cons hc, trimEnd_trimEnd]

/-- Characters may be replaced before trimming or after it if blanks are replaced by blanks, and
others by others. -/
theorem trim_map {f : Char → Char} (hf : ∀ c, isBlank (f c) = isBlank c) (l : List Char) :
    trim (l.map f) = (trim l).map f := by
  have hblank : isBlank ∘ f = isBlank := funext hf
  unfold trim trimEnd trimStart
  rw [List.dropWhile_map, hblank, ← List.map_reverse, List.dropWhile_map, hblank, List.map_reverse]

theorem trim_eq_nil_iff {l : List Char} : trim l = [] ↔ ∀ c ∈ l, isBlank c = true := by
  constructor
  · intro h c hc
    cases hblank : isBlank c with
    | true => rfl
    | false => exact absurd (h ▸ mem_trim hblank hc) List.not_mem_nil
  · intro h
    rw [trim, trimStart, List.dropWhile_eq_nil_iff.mpr h]
    rfl

/-! ### Strings -/

theorem trimmed_trimmed (s : String) : trimmed (trimmed s) = trimmed s := by
  unfold trimmed
  rw [String.toList_ofList, trim_trim]

theorem trim_toList_eq_nil_iff {s : String} : trim s.toList = [] ↔ isBlankText s = true := by
  rw [trim_eq_nil_iff, isBlankText, List.all_eq_true]

/-- A text is empty after trimming exactly if it holds blanks only. -/
theorem trimmed_eq_empty_iff {s : String} : trimmed s = "" ↔ isBlankText s = true := by
  rw [trimmed, String.ofList_eq_empty_iff, trim_toList_eq_nil_iff]

end PlaybookPolicy.Text
