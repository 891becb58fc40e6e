import PlaybookPolicy.Proofs.ClaimedLines
import PlaybookPolicy.Proofs.QuotedText
import PlaybookPolicy.Proofs.Trimming

/-!
# Lines that declare names

A line declares a name if it writes it behind `name:`, between blanks and in a pair of quotes or in
none, and with nothing but blanks and item marks before the key.  A walk finds for each name it
looks for the first line below its own that declares it, and goes on from there; it stays where it
is if no line does.

## Main definitions

* `DeclaresName`, `DeclaresAt` — a line declares a name; a text does so at a line.
* `Resolves` — the line that a name is found at below a given one, if there is a name and a line.

## Main results

* `declaredName?_eq_some_iff` — how the name of a line is read.
* `NameLines.resolves_locateName?` — a name is looked up as it is declared.
* `collectTasks_resolves` — **names are resolved in document order.**
-/

namespace PlaybookPolicy

open Yaml (Value Mapping)

/-! ### Names of lines -/

/-- A number of item marks. -/
def itemMarks (n : Nat) : List Char :=
  (List.replicate n ['-', ' ']).flatten

/-- The line declares the name.  Behind blanks, item marks and blanks it has `name:`, and what
follows is the name, but for outer blanks and one pair of quotes. -/
def DeclaresName (line : List Char) (name : String) : Prop :=
  ∃ front n back value, line = front ++ (itemMarks n ++ (back ++ ("name:".toList ++ value))) ∧
    (∀ c ∈ front, Text.isBlank c = true) ∧ (∀ c ∈ back, Text.isBlank c = true) ∧
    Text.Unquotes (Text.trim value) name.toList

theorem itemMarks_succ (n : Nat) (l : List Char) :
    itemMarks (n + 1) ++ l = '-' :: ' ' :: (itemMarks n ++ l) := rfl

theorem dropItemMarks_append (n : Nat) (l : List Char) :
    dropItemMarks (itemMarks n ++ l) = dropItemMarks l := by
  induction n with
  | zero => rfl
  | succ n ih => rw [itemMarks_succ, dropItemMarks, ih]

theorem dropItemMarks_eq_self {l : List Char} (h : ∀ c ∈ l.head?, c ≠ '-') :
    dropItemMarks l = l := by
  fun_cases dropItemMarks l with
  | case1 l => exact absurd rfl (h '-' rfl)
  | case2 l => rfl

/-- What is dropped are item marks. -/
theorem exists_itemMarks (l : List Char) : ∃ n, l = itemMarks n ++ dropItemMarks l := by
  fun_induction dropItemMarks l with
  | case1 l ih =>
    obtain ⟨n, hn⟩ := ih
    refine ⟨n + 1, ?_⟩
    rw [itemMarks_succ, ← hn]
  | case2 l h => exact ⟨0, rfl⟩

/-- The key is looked for behind blanks, item marks and blanks. -/
theorem trimStart_dropItemMarks_eq_iff {line : List Char} {c : Char} {l : List Char}
    (hc : Text.isBlank c = false) (hmark : c ≠ '-') :
    Text.trimStart (dropItemMarks (Text.trimStart line)) = c :: l ↔
      ∃ front n back, line = front ++ (itemMarks n ++ (back ++ c :: l)) ∧
        (∀ c ∈ front, Text.isBlank c = true) ∧ ∀ c ∈ back, Text.isBlank c = true := by
  constructor
  · intro h
    obtain ⟨front, hfront, hline⟩ := Text.exists_append_trimStart line
    obtain ⟨n, hn⟩ := exists_itemMarks (Text.trimStart line)
    obtain ⟨back, hback, hrest⟩ :=
      Text.exists_append_trimStart (dropItemMarks (Text.trimStart line))
    rw [h] at hrest
    rw [hrest] at hn
    rw [hn] at hline
    exact ⟨front, n, back, hline, hfront, hback⟩
  · rintro ⟨front, n, back, rfl, hfront, hback⟩
    have hkey : Text.trimStart (c :: l) = c :: l := List.dropWhile_cons_of_neg (by simp [hc])
    -- no item mark stands behind the blanks, nor among them
    have hmarks : dropItemMarks (back ++ c :: l) = back ++ c :: l := by
      apply dropItemMarks_eq_self
      intro d hd
      cases back with
      | nil =>
        cases hd
        exact hmark
      | cons b back =>
        cases hd
        intro hdash
        have hblank := hback d List.mem_cons_self
        rw [hdash] at hblank
        exact absurd hblank (by decide)
    rw [Text.trimStart_append hfront]
    cases n with
    | zero =>
      have hnone : dropItemMarks (c :: l) = c :: l := by
        apply dropItemMarks_eq_self
        intro d hd
        cases hd
        exact hmark
      change Text.trimStart (dropItemMarks (Text.trimStart (back ++ c :: l))) = c :: l
      rw [Text.trimStart_append hback, hkey, hnone, hkey]
    | succ n =>
      have hfirst : Text.trimStart (itemMarks (n + 1) ++ (back ++ c :: l))
          = itemMarks (n + 1) ++ (back ++ c :: l) :=
        List.dropWhile_cons_of_neg (by decide)
      rw [hfirst, dropItemMarks_append, hmarks, Text.trimStart_append hback, hkey]

/-- **How the name of a line is read.** -/
theorem declaredName?_eq_some_iff {line : List Char} {name : String} :
    declaredName? line = some name ↔ DeclaresName line name := by
  have hread : declaredName? line = some name ↔
      ∃ value, Text.trimStart (dropItemMarks (Text.trimStart line)) = "name:".toList ++ value ∧
        Text.Unquotes (Text.trim value) name.toList := by
    rw [declaredName?]
    split
    · next l hl =>
      rw [hl, Option.some.injEq, ← String.toList_inj, String.toList_ofList, Text.unquote_eq_iff]
      constructor
      · intro h
        exact ⟨l, rfl, h⟩
      · rintro ⟨value, hvalue, h⟩
        cases hvalue
        exact h
    · next hne =>
      constructor
      · intro h
        cases h
      · rintro ⟨value, hvalue, -⟩
        exact absurd hvalue (hne value)
  rw [hread]
  constructor
  · rintro ⟨value, hvalue, hname⟩
    obtain ⟨front, n, back, hline, hfront, hback⟩ :=
      (trimStart_dropItemMarks_eq_iff (by decide) (by decide)).mp hvalue
    exact ⟨front, n, back, value, hline, hfront, hback, hname⟩
  · rintro ⟨front, n, back, value, hline, hfront, hback, hname⟩
    exact ⟨value, (trimStart_dropItemMarks_eq_iff (by decide) (by decide)).mpr
      ⟨front, n, back, hline, hfront, hback⟩, hname⟩

/-- The text has the line, counted from one, and the line declares the name. -/
def DeclaresAt (content : String) (line : Nat) (name : String) : Prop :=
  0 < line ∧ ∃ text, (splitLines content.toList)[line - 1]? = some text ∧ DeclaresName text name

theorem declaresAt_iff {content : String} {line : Nat} {name : String} :
    DeclaresAt content line name ↔
      0 < line ∧ (NameLines.of content)[line - 1]? = some (some name) := by
  rw [DeclaresAt, NameLines.of, List.getElem?_map]
  simp only [Option.map_eq_some_iff, declaredName?_eq_some_iff]

/-! ### Lookups -/

/-- The line that a name is found at, if it is looked for below line `after`: the first one that
declares it.  Nothing is found without a name. -/
inductive Resolves (content : String) (after : Nat) : Option String → Option Nat → Prop
  /-- There is no name to look for. -/
  | unnamed : Resolves content after none none
  /-- The name is declared further down, and not before. -/
  | found {name : String} {line : Nat} (hafter : after < line)
      (hline : DeclaresAt content line name)
      (hfirst : ∀ k, after < k → k < line → ¬DeclaresAt content k name) :
      Resolves content after (some name) (some line)
  /-- No line further down declares the name. -/
  | missing {name : String} (hnone : ∀ k, after < k → ¬DeclaresAt content k name) :
      Resolves content after (some name) none

namespace NameLines

variable {names : NameLines} {name : String} {after : Nat}

/-- Nothing stands between the given line and the one that is found. -/
theorem first_of_locate? {line : Nat} (h : names.locate? name after = some line) :
    ∀ k, after < k → k < line → names[k - 1]? ≠ some (some name) := by
  intro k hk hlt hname
  unfold locate? at h
  obtain ⟨i, hi, rfl⟩ := Option.map_eq_some_iff.mp h
  obtain ⟨hlength, -, hfirst⟩ := List.findIdx?_eq_some_iff_getElem.mp hi
  apply hfirst (k - 1 - after) (by omega)
  rw [List.getElem_drop, beq_iff_eq]
  have hindex : after + (k - 1 - after) = k - 1 := by omega
  simp only [hindex]
  exact (List.getElem?_eq_some_iff.mp hname).2

/-- Nothing is found if no line below the given one declares the name. -/
theorem of_locate?_eq_none (h : names.locate? name after = none) :
    ∀ k, after < k → names[k - 1]? ≠ some (some name) := by
  intro k hk hname
  unfold locate? at h
  rw [Option.map_eq_none_iff, List.findIdx?_eq_none_iff] at h
  have hmem : some name ∈ names.drop after := by
    refine List.mem_iff_getElem?.mpr ⟨k - 1 - after, ?_⟩
    have hindex : after + (k - 1 - after) = k - 1 := by omega
    rw [List.getElem?_drop, hindex, hname]
  have hne := h (some name) hmem
  rw [beq_self_eq_true] at hne
  cases hne

/-- **A name is looked up as it is declared.** -/
theorem resolves_locateName? (content : String) (name? : Option String) (after : Nat) :
    Resolves content after name? ((NameLines.of content).locateName? name? after) := by
  cases name? with
  | none => exact .unnamed
  | some name =>
    rw [locateName?, Option.bind_some]
    cases h : (NameLines.of content).locate? name after with
    | none =>
      refine .missing ?_
      intro k hk hdeclares
      exact of_locate?_eq_none h k hk (declaresAt_iff.mp hdeclares).2
    | some line =>
      obtain ⟨hafter, hline⟩ := spec_of_locate? h
      refine .found hafter (declaresAt_iff.mpr ⟨by omega, hline⟩) ?_
      intro k hk hlt hdeclares
      exact first_of_locate? h k hk hlt (declaresAt_iff.mp hdeclares).2

end NameLines

/-! ### The walk -/

/-- Each visit is resolved from the last line found before it. -/
theorem line?_of_locateVisits {names : NameLines} {v : Visit} {line : Option Nat}
    {after : List (Visit × Option Nat)} :
    ∀ {before : List (Visit × Option Nat)} {l : List Visit} {cursor : Nat},
      locateVisits names cursor l = before ++ (v, line) :: after →
        line = v.line? names (lastLine cursor before) := by
  intro before
  induction before with
  | nil =>
    intro l cursor h
    cases l with
    | nil => cases h
    | cons w l =>
      cases h
      rfl
  | cons e before ih =>
    intro l cursor h
    cases l with
    | nil => cases h
    | cons w l =>
      rw [locateVisits, List.cons_append, List.cons.injEq] at h
      obtain ⟨rfl, hrest⟩ := h
      rw [lastLine_cons]
      exact ih hrest

/-- **Names are resolved in document order.**  A walk meets the mappings below its items one after
the other.  The name of a block or of a task gets the first line that declares it below the last
line found before, and none if there is no such line; so the lines of the tasks increase, from below
the line where the walk starts to the one where it ends. -/
theorem collectTasks_resolves (content : String) (cursor : Nat) (items : List Value) :
    ∃ visits : List (Visit × Option Nat),
      visits.map Prod.fst = items.flatMap visitsOf ∧
      collectTasks (NameLines.of content) cursor items
        = (placedTasks visits, lastLine cursor visits) ∧
      (∀ before v line after, visits = before ++ (v, line) :: after →
        Resolves content (lastLine cursor before) v.wanted line) ∧
      ((placedTasks visits).filterMap (·.line)).Pairwise (· < ·) ∧
      ∀ l ∈ (placedTasks visits).filterMap (·.line), cursor < l ∧ l ≤ lastLine cursor visits := by
  have heq := collectTasks_eq (NameLines.of content) cursor items
  have hclaims := taskClaims_collectTasks (NameLines.of content) cursor items
  rw [heq] at hclaims
  refine ⟨locateVisits (NameLines.of content) cursor (items.flatMap visitsOf),
    map_fst_locateVisits _ _ _, heq, ?_, ?_, ?_⟩
  · intro before v line after h
    rw [line?_of_locateVisits h]
    exact NameLines.resolves_locateName? content v.wanted _
  · rw [List.pairwise_filterMap]
    exact hclaims.increasing.imp fun h l hl k hk => h l k hl hk
  · intro l hl
    obtain ⟨t, ht, hline⟩ := List.mem_filterMap.mp hl
    exact hclaims.between t ht l hline

end PlaybookPolicy
