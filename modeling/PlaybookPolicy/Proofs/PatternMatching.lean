import Mathlib.Data.List.Basic
import PlaybookPolicy.Discovery

/-!
# What patterns match

A part of a pattern takes octets off the front of a path, so what the parts after it see is an
ending of the path.  Two stars at the beginning take nothing or stop behind a slash; a literal takes
its own octets; two stars at the end take all that is behind a slash.

## Main definitions

* `PatternMatches` — the text writes a pattern, and the pattern matches the path.

## Main results

* `mem_suffixes`, `mem_behindSlash` — endings, and endings behind a slash.
* `mem_partRests_leading`, `mem_partRests_literals` — what the parts of a pattern leave.
* `matches_repositoryPattern_iff` — **what belongs to a repository itself.**
* `suffix_of_matches_extension` — a pattern of an extension matches only paths that end in it.
-/

namespace PlaybookPolicy

variable {separate : Bool} {part : GlobPart} {parts : List GlobPart} {l r : List UInt8}

/-! ### Endings -/

theorem mem_suffixes : r ∈ suffixes l ↔ r <:+ l := by
  induction l with
  | nil => rw [suffixes, List.mem_singleton, List.suffix_nil]
  | cons b l ih => rw [suffixes, List.mem_cons, ih, List.suffix_cons_iff]

theorem mem_behindSlash : r ∈ behindSlash l ↔ ∃ a, l = a ++ Path.slash :: r := by
  rw [behindSlash, List.mem_filterMap]
  constructor
  · rintro ⟨s, hs, hr⟩
    obtain ⟨a, rfl⟩ := mem_suffixes.mp hs
    cases s with
    | nil => cases hr
    | cons b s =>
      simp only at hr
      split at hr
      · next hb =>
        cases hr
        exact ⟨a, by rw [beq_iff_eq.mp hb]⟩
      · cases hr
  · rintro ⟨a, rfl⟩
    refine ⟨Path.slash :: r, mem_suffixes.mpr (List.suffix_append a _), ?_⟩
    simp

/-! ### Parts -/

theorem mem_partRests_nil : r ∈ partRests separate [] l ↔ r = l := by
  rw [partRests, List.mem_singleton]

theorem mem_partRests_cons :
    r ∈ partRests separate (part :: parts) l ↔
      ∃ m ∈ part.rests separate l, r ∈ partRests separate parts m := by
  rw [partRests, List.mem_eraseDups, List.mem_flatMap]

/-- Two stars at the beginning take nothing, or all up to some slash. -/
theorem mem_partRests_leading :
    r ∈ partRests separate (.leading :: parts) l ↔
      ∃ a m, l = a ++ m ∧ (a = [] ∨ a.getLast? = some Path.slash) ∧
        r ∈ partRests separate parts m := by
  rw [mem_partRests_cons, GlobPart.rests]
  constructor
  · rintro ⟨m, hm, hr⟩
    rcases List.mem_cons.mp hm with rfl | hm
    · exact ⟨[], m, rfl, .inl rfl, hr⟩
    · obtain ⟨a, rfl⟩ := mem_behindSlash.mp hm
      refine ⟨a ++ [Path.slash], m, by rw [List.append_assoc, List.singleton_append], .inr ?_, hr⟩
      exact List.getLast?_concat
  · rintro ⟨a, m, rfl, ha, hr⟩
    refine ⟨m, List.mem_cons.mpr ?_, hr⟩
    rcases ha with rfl | ha
    · exact .inl rfl
    · obtain ⟨a, rfl⟩ := List.getLast?_eq_some_iff.mp ha
      refine .inr (mem_behindSlash.mpr ⟨a, ?_⟩)
      rw [List.append_assoc, List.singleton_append]

theorem mem_partRests_literal {c : Char} :
    r ∈ partRests separate (.literal c :: parts) l ↔
      ∃ m, l = octetsOf c ++ m ∧ r ∈ partRests separate parts m := by
  rw [mem_partRests_cons, GlobPart.rests]
  constructor
  · rintro ⟨m, hm, hr⟩
    split at hm
    · next hpre =>
      obtain ⟨s, rfl⟩ := List.isPrefixOf_iff_prefix.mp hpre
      rw [List.mem_singleton, List.drop_left] at hm
      subst hm
      exact ⟨m, rfl, hr⟩
    · cases hm
  · rintro ⟨m, rfl, hr⟩
    refine ⟨m, ?_, hr⟩
    rw [if_pos ( List.isPrefixOf_iff_prefix.mpr (List.prefix_append _ m)), List.drop_left]
    exact List.mem_singleton_self m

/-- Literals take their own octets. -/
theorem mem_partRests_literals (cs : List Char) :
    r ∈ partRests separate (cs.map .literal ++ parts) l ↔
      ∃ m, l = cs.flatMap octetsOf ++ m ∧ r ∈ partRests separate parts m := by
  induction cs generalizing l with
  | nil => simp
  | cons c cs ih =>
    rw [List.map_cons, List.cons_append, mem_partRests_literal, List.flatMap_cons]
    constructor
    · rintro ⟨m, rfl, hrest⟩
      obtain ⟨m', rfl, hr⟩ := ih.mp hrest
      exact ⟨m', (List.append_assoc _ _ _).symm, hr⟩
    · rintro ⟨m, rfl, hr⟩
      exact ⟨_, List.append_assoc _ _ _, ih.mpr ⟨m, rfl, hr⟩⟩

/-- Two stars at the end take all that is behind a slash. -/
theorem nil_mem_partRests_inside :
    [] ∈ partRests separate [.inside] l ↔ l.head? = some Path.slash := by
  simp only [mem_partRests_cons, mem_partRests_nil, GlobPart.rests]
  constructor
  · rintro ⟨m, hm, -⟩
    split at hm
    · next hslash => exact beq_iff_eq.mp hslash
    · cases hm
  · intro hslash
    refine ⟨[], ?_, rfl⟩
    rw [if_pos (beq_iff_eq.mpr hslash)]
    exact mem_suffixes.mpr List.nil_suffix

/-! ### Whole patterns -/

/-- The text writes a pattern, and the pattern matches the path. -/
def PatternMatches (text : String) (p : Path) : Prop :=
  ∃ g, Glob.parse text = .ok g ∧ g.isMatch p = true

variable {g : Glob} {p : Path}

theorem patternMatches_iff {text : String} (h : Glob.parse text = .ok g) :
    PatternMatches text p ↔ g.isMatch p = true := by
  constructor
  · rintro ⟨g', hg', hmatch⟩
    cases h.symm.trans hg'
    exact hmatch
  · intro hmatch
    exact ⟨g, h, hmatch⟩

/-- A pattern of more than two stars leaves nothing of a path that it matches. -/
theorem nil_mem_partRests_of_isMatch (hparts : g.parts ≠ [.leading]) (h : g.isMatch p = true) :
    [] ∈ partRests false g.parts p.octets := by
  rw [Glob.isMatch, Glob.partsMatch.eq_def] at h
  split at h
  · next heq => exact absurd heq hparts
  · rw [Bool.and_eq_true, List.any_eq_true] at h
    obtain ⟨⟨r, hr, hnil⟩, -⟩ := h
    rwa [List.isEmpty_iff.mp hnil] at hr

/-- If it does not end in a point, it matches every path of which it leaves nothing. -/
theorem isMatch_iff (hparts : g.parts ≠ [.leading])
    (hpoint : Glob.endsNameInPoint false g.parts = false) :
    g.isMatch p = true ↔ [] ∈ partRests false g.parts p.octets := by
  refine ⟨nil_mem_partRests_of_isMatch hparts, fun h => ?_⟩
  rw [Glob.isMatch, Glob.partsMatch.eq_def]
  split
  · next heq => exact absurd heq hparts
  · rw [hpoint, Bool.and_false, Bool.not_false, Bool.and_true, List.any_eq_true]
    exact ⟨[], h, rfl⟩

/-- The name of what belongs to a repository itself. -/
def repositoryName : EntryName :=
  Text.Utf8.encode ".git"

/-- **What belongs to a repository itself** is below the name `.git`, wherever that stands. -/
theorem matches_repositoryPattern_iff :
    PatternMatches repositoryPattern p ↔
      ∃ a b, p.octets = a ++ repositoryName ++ Path.slash :: b ∧
        (a = [] ∨ a.getLast? = some Path.slash) := by
  have hparse : Glob.parse repositoryPattern =
      .ok ⟨repositoryPattern, .leading :: (".git".toList.map .literal ++ [.inside])⟩ := by
    rfl
  have hname : ".git".toList.flatMap octetsOf = repositoryName := by decide
  rw [patternMatches_iff hparse, isMatch_iff (by simp) (by decide), mem_partRests_leading]
  simp only [mem_partRests_literals, nil_mem_partRests_inside, hname, List.head?_eq_some_iff]
  constructor
  · rintro ⟨a, m, hl, ha, m', rfl, b, rfl⟩
    exact ⟨a, b, by rw [hl, List.append_assoc], ha⟩
  · rintro ⟨a, b, hl, ha⟩
    exact ⟨a, _, by rw [hl, List.append_assoc], ha, _, rfl, b, rfl⟩

/-- A pattern of an extension matches only paths that end in it. -/
theorem suffix_of_matches_extension {cs : List Char}
    (hparts : g.parts = .leading :: .run :: cs.map .literal) (h : g.isMatch p = true) :
    cs.flatMap octetsOf <:+ p.octets := by
  have hrests := nil_mem_partRests_of_isMatch (by simp [hparts]) h
  rw [hparts, mem_partRests_leading] at hrests
  obtain ⟨a, m, hl, -, hrests⟩ := hrests
  rw [mem_partRests_cons] at hrests
  obtain ⟨m', hm', hrests⟩ := hrests
  rw [← List.append_nil (cs.map GlobPart.literal), mem_partRests_literals] at hrests
  obtain ⟨m'', rfl, hnil⟩ := hrests
  rw [mem_partRests_nil] at hnil
  subst hnil
  have hsuffix : cs.flatMap octetsOf ++ [] <:+ m := mem_suffixes.mp hm'
  rw [List.append_nil] at hsuffix
  rw [hl]
  exact hsuffix.trans (List.suffix_append a m)

end PlaybookPolicy
