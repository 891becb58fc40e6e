import PlaybookPolicy.Config.Validate
import PlaybookPolicy.Proofs.ListOptions
import PlaybookPolicy.Proofs.OctetOrder
import PlaybookPolicy.Proofs.SelectedFiles

/-!
# What makes a configuration sound

A configuration must meet one requirement after the other: its version is known, its patterns are
globs, and the lists in its settings have no blank entry, whether there is a rule of that id or not.
The requirements stand in a fixed order, with the rules in the order of the octets of their ids, and
a configuration that breaks some is refused for the first of them.  The patterns of a sound
configuration are read once more when files are listed, and then none of them is refused.

## Main definitions

* `Requirement` — one thing that a configuration must meet.
* `Requirement.Broken` — what breaks it, with the sentence that reports it.
* `Config.requirements` — the requirements in their order.

## Main results

* `Config.fault?_eq` — the fault of a configuration is that of the first requirement with one.
* `Config.fault?_eq_none_iff` — what a configuration without faults meets.
* `FileTree.select_ne_invalidGlob` — patterns that are globs are not refused later.
* `Config.validate_exact` — **which configurations are sound, and for what the others are refused.**
-/

namespace PlaybookPolicy

/-- One thing that a configuration must meet. -/
inductive Requirement where
  /-- The version is known. -/
  | version (v : String)
  /-- The pattern in the given role is a glob. -/
  | pattern (role text : String)
  /-- The list that settings of a rule give for an option has no blank entry. -/
  | entries (rule : String) (o : ListOption) (l : List String)

namespace Requirement

/-- The requirement is broken, and the sentence reports that. -/
inductive Broken : Requirement → String → Prop
  /-- Another version than `1`. -/
  | version {v : String} (hv : v ≠ "1") :
      Broken (.version v) ("Unsupported configuration version '" ++ v ++ "'. Expected '1'")
  /-- A pattern that cannot be read. -/
  | pattern {role text : String} {e : GlobError} (he : Glob.parse text = .error e) :
      Broken (.pattern role text)
        ("Invalid " ++ role ++ " glob pattern '" ++ text ++ "': " ++ e.message text)
  /-- An entry that is empty after trimming. -/
  | entries {rule : String} {o : ListOption} {l : List String} {s : String} (hs : s ∈ l)
      (hempty : Text.trimmed s = "") :
      Broken (.entries rule o l) ("Empty entry in '" ++ o.name ++ "' for rule '" ++ rule ++ "'")

/-- The sentence that reports a broken requirement. -/
def fault? : Requirement → Option String
  | version v =>
    if v = "1" then none
    else some ("Unsupported configuration version '" ++ v ++ "'. Expected '1'")
  | pattern role text => patternFault? role text
  | entries rule o l => listFault? rule o.name (some l)

theorem fault?_eq_some_iff {x : Requirement} {reason : String} :
    x.fault? = some reason ↔ x.Broken reason := by
  cases x with
  | version v =>
    rw [fault?]
    constructor
    · intro h
      split at h
      · cases h
      · next hv =>
        cases h
        exact .version hv
    · intro h
      cases h with
      | version hv => exact if_neg hv
  | pattern role text =>
    rw [fault?, patternFault?]
    constructor
    · intro h
      split at h
      · cases h
      · next e he =>
        cases h
        exact .pattern he
    · intro h
      cases h with
      | pattern he => rw [he]
  | entries rule o l =>
    rw [fault?, listFault?, Option.getD_some]
    constructor
    · intro h
      split at h
      · next hany =>
        obtain ⟨s, hs, hblank⟩ := List.any_eq_true.mp hany
        cases h
        exact .entries hs (Text.trimmed_eq_empty_iff.mpr hblank)
      · cases h
    · intro h
      cases h with
      | entries hs hempty =>
        exact if_pos (List.any_eq_true.mpr ⟨_, hs, Text.trimmed_eq_empty_iff.mp hempty⟩)

theorem fault?_eq_none_iff {x : Requirement} : x.fault? = none ↔ ∀ reason, ¬x.Broken reason := by
  rw [Option.eq_none_iff_forall_ne_some]
  exact forall_congr' fun reason => not_congr fault?_eq_some_iff

theorem version_met_iff {v : String} : (∀ reason, ¬(version v).Broken reason) ↔ v = "1" := by
  constructor
  · intro h
    exact Decidable.byContradiction fun hv => h _ (.version hv)
  · intro hv reason h
    cases h with
    | version hne => exact hne hv

theorem pattern_met_iff {role text : String} :
    (∀ reason, ¬(pattern role text).Broken reason) ↔ ∃ g, Glob.parse text = .ok g := by
  constructor
  · intro h
    cases hparse : Glob.parse text with
    | ok g => exact ⟨g, rfl⟩
    | error e => exact absurd (.pattern hparse) (h _)
  · rintro ⟨g, hg⟩ reason h
    cases h with
    | pattern he => cases hg.symm.trans he

theorem entries_met_iff {rule : String} {o : ListOption} {l : List String} :
    (∀ reason, ¬(entries rule o l).Broken reason) ↔ ∀ s ∈ l, Text.trimmed s ≠ "" := by
  constructor
  · intro h s hs hempty
    exact h _ (.entries hs hempty)
  · intro h reason hbroken
    cases hbroken with
    | entries hs hempty => exact h _ hs hempty

end Requirement

namespace Config

/-! ### Requirements -/

/-- What the entry of a rule must meet. -/
def entryRequirements (rule : String) (entry : RuleEntry) : List Requirement :=
  match entry.settings? with
  | some s => ListOption.all.flatMap fun o => ((o.written? s).map (.entries rule o)).toList
  | none => []

/-- What a configuration must meet: its version, its patterns, and its rules in the order of their
ids. -/
def requirements (c : Config) : List Requirement :=
  [.version c.version] ++ c.includes.map (.pattern "include") ++
    c.excludes.map (.pattern "exclude") ++
      c.rules.entries.flatMap fun e => entryRequirements e.1 e.2

theorem versionFault?_eq (c : Config) :
    c.versionFault? = (Requirement.version c.version).fault? := by
  simp [versionFault?, Requirement.fault?, configVersion, String.append_assoc]

theorem entryFault?_eq (rule : String) (entry : RuleEntry) :
    entryFault? rule entry = (entryRequirements rule entry).findSome? Requirement.fault? := by
  cases entry with
  | enabled on => rfl
  | settings s =>
    have hoption : ∀ o : ListOption, listFault? rule o.name (o.written? s) =
        ((o.written? s).map (.entries rule o)).toList.findSome? Requirement.fault? := by
      intro o
      cases o.written? s with
      | none => rfl
      | some l => exact List.findSome?_singleton.symm
    -- the option of the recipients rule is inspected first
    have hall : entryRequirements rule (.settings s) =
        (s.allowedEmailDomains.map (.entries rule .allowedEmailDomains)).toList ++
          (s.mandatoryCollections.map (.entries rule .mandatoryCollections)).toList :=
      congrArg _ (List.append_nil _)
    rw [hall, List.findSome?_append]
    exact congrArg₂ Option.or (hoption .allowedEmailDomains) (hoption .mandatoryCollections)

/-- The fault of a configuration is that of the first requirement with one. -/
theorem fault?_eq (c : Config) : c.fault? = c.requirements.findSome? Requirement.fault? := by
  have hrules : ∀ l : List (String × RuleEntry),
      (l.flatMap fun e => entryRequirements e.1 e.2).findSome? Requirement.fault? =
        l.findSome? fun e => entryFault? e.1 e.2 := by
    intro l
    induction l with
    | nil => rfl
    | cons e l ih =>
      rw [List.flatMap_cons, List.findSome?_append, ih, ← entryFault?_eq, List.findSome?_cons]
      cases entryFault? e.1 e.2 <;> rfl
  rw [requirements, List.findSome?_append, List.findSome?_append, List.findSome?_append,
    List.findSome?_singleton, List.findSome?_map, List.findSome?_map, hrules, ← versionFault?_eq,
    Option.or_assoc, Option.or_assoc]
  rfl

theorem mem_entryRequirements_iff {rule : String} {entry : RuleEntry} {x : Requirement} :
    x ∈ entryRequirements rule entry ↔
      ∃ s o l, entry = .settings s ∧ ListOption.written? o s = some l ∧ x = .entries rule o l := by
  cases entry with
  | enabled on => simp [entryRequirements, RuleEntry.settings?]
  | settings s =>
    have hall : ∀ o, o ∈ ListOption.all := by
      intro o
      cases o <;> decide
    simp only [entryRequirements, RuleEntry.settings?, List.mem_flatMap, hall, true_and,
      Option.mem_toList, Option.map_eq_some_iff]
    constructor
    · rintro ⟨o, l, hl, rfl⟩
      exact ⟨s, o, l, rfl, hl, rfl⟩
    · rintro ⟨_, o, l, ⟨rfl⟩, hl, rfl⟩
      exact ⟨o, l, hl, rfl⟩

/-- What a configuration without faults meets. -/
theorem fault?_eq_none_iff {c : Config} :
    c.fault? = none ↔
      c.version = "1" ∧ (∀ s ∈ c.includes ++ c.excludes, ∃ g, Glob.parse s = .ok g) ∧
        ∀ rule s, (rule, .settings s) ∈ c.rules.entries →
          ∀ (o : ListOption) (l : List String), o.written? s = some l →
            ∀ v ∈ l, Text.trimmed v ≠ "" := by
  have hmet : c.fault? = none ↔ ∀ x ∈ c.requirements, ∀ reason, ¬x.Broken reason := by
    rw [fault?_eq, List.findSome?_eq_none_iff]
    exact forall₂_congr fun x _ => Requirement.fault?_eq_none_iff
  have hrules : (∀ x ∈ c.rules.entries.flatMap fun e => entryRequirements e.1 e.2,
      ∀ reason, ¬x.Broken reason) ↔ ∀ rule s, (rule, .settings s) ∈ c.rules.entries →
          ∀ (o : ListOption) (l : List String), o.written? s = some l →
            ∀ v ∈ l, Text.trimmed v ≠ "" := by
    constructor
    · intro h rule s hs o l hl
      refine Requirement.entries_met_iff.mp (h (.entries rule o l) ?_)
      exact List.mem_flatMap.mpr ⟨_, hs, mem_entryRequirements_iff.mpr ⟨s, o, l, rfl, hl, rfl⟩⟩
    · intro h x hx
      obtain ⟨⟨rule, entry⟩, he, hx⟩ := List.mem_flatMap.mp hx
      obtain ⟨s, o, l, rfl, hl, rfl⟩ := mem_entryRequirements_iff.mp hx
      exact Requirement.entries_met_iff.mpr (h rule s he o l hl)
  rw [hmet, requirements, List.forall_mem_append, hrules]
  simp only [List.forall_mem_append, List.forall_mem_singleton, List.forall_mem_map,
    Requirement.version_met_iff, Requirement.pattern_met_iff, and_assoc]

theorem validate_eq_ok_iff {c : Config} : c.validate = .ok c ↔ c.fault? = none := by
  rw [validate]
  cases c.fault? <;> simp

/-- A configuration is refused for the first requirement that it breaks. -/
theorem validate_eq_error_iff {c : Config} {e : ConfigError} :
    c.validate = .error e ↔ ∃ met x rest reason, c.requirements = met ++ x :: rest ∧
      (∀ y ∈ met, ∀ other, ¬y.Broken other) ∧ x.Broken reason ∧ e = .invalid reason := by
  have hvalidate : c.validate = .error e ↔
      ∃ reason, c.fault? = some reason ∧ e = .invalid reason := by
    rw [validate]
    cases c.fault? <;> simp [eq_comm]
  rw [hvalidate, fault?_eq]
  simp only [List.findSome?_eq_some_iff, Requirement.fault?_eq_some_iff,
    Requirement.fault?_eq_none_iff]
  constructor
  · rintro ⟨reason, ⟨met, x, rest, hreqs, hx, hmet⟩, rfl⟩
    exact ⟨met, x, rest, reason, hreqs, hmet, hx, rfl⟩
  · rintro ⟨met, x, rest, reason, hreqs, hmet, hx, rfl⟩
    exact ⟨reason, ⟨met, x, rest, hreqs, hx, hmet⟩, rfl⟩

end Config

/-! ### Patterns when files are listed -/

namespace FileTree

theorem walk_ne_invalidGlob (t : FileTree) (root : Path) (pattern reason : String) :
    t.walk root ≠ .error (.invalidGlob pattern reason) := by
  unfold walk
  split
  · simp
  · split
    · simp
    · split
      · dsimp only
        split <;> simp
      · simp
      · simp

/-- Patterns that are globs are not refused later. -/
theorem select_ne_invalidGlob {includes excludes : List String}
    (h : ∀ s ∈ includes ++ excludes, ∃ g, Glob.parse s = .ok g) (t : FileTree) (root : Path)
    (pattern reason : String) :
    t.select includes excludes root ≠ .error (.invalidGlob pattern reason) := by
  obtain ⟨filter, hfilter, -⟩ := exists_ofPatterns h
  have hwalk := t.walk_ne_invalidGlob root pattern reason
  rw [select, hfilter]
  cases hfound : t.walk root with
  | ok files =>
    intro h
    cases h
  | error e =>
    intro h
    cases h
    exact hwalk hfound

theorem discover_ne_invalidGlob {c : Config}
    (h : ∀ s ∈ c.includes ++ c.excludes, ∃ g, Glob.parse s = .ok g) (t : FileTree)
    (roots : List Path) (pattern reason : String) :
    t.discover c roots ≠ .error (.invalidGlob pattern reason) := by
  intro hdiscover
  rw [discover] at hdiscover
  cases hfound : roots.mapM (t.select c.includes c.excludes) with
  | ok found =>
    rw [hfound] at hdiscover
    cases hdiscover
  | error e =>
    rw [hfound] at hdiscover
    cases hdiscover
    obtain ⟨root, -, hroot⟩ := exists_of_mapM_error hfound
    exact select_ne_invalidGlob h t root pattern reason hroot

end FileTree

/-- **Which configurations are sound, and for what the others are refused.**  The requirements stand
in the order in which they are written here, with the ids of the rules in the order of their octets.
The patterns of a sound configuration make a filter of files, and no search for files refuses any of
them. -/
theorem Config.validate_exact (c : Config) :
    (c.validate = .ok c ↔
      c.version = "1" ∧ (∀ s ∈ c.includes ++ c.excludes, ∃ g, Glob.parse s = .ok g) ∧
        ∀ rule s, (rule, .settings s) ∈ c.rules.entries →
          ∀ (o : ListOption) (l : List String), o.written? s = some l →
            ∀ v ∈ l, Text.trimmed v ≠ "") ∧
    (∀ e, c.validate = .error e ↔ ∃ met x rest reason, c.requirements = met ++ x :: rest ∧
      (∀ y ∈ met, ∀ other, ¬y.Broken other) ∧ x.Broken reason ∧ e = .invalid reason) ∧
    c.rules.entries.Pairwise (fun a b => Text.Utf8.encode a.1 < Text.Utf8.encode b.1) ∧
    (c.validate = .ok c →
      (∃ filter, FileFilter.ofPatterns c.includes c.excludes = .ok filter) ∧
        ∀ (t : FileTree) roots pattern reason,
          t.discover c roots ≠ .error (.invalidGlob pattern reason)) := by
  refine ⟨validate_eq_ok_iff.trans fault?_eq_none_iff, fun e => validate_eq_error_iff, ?_, ?_⟩
  · exact c.rules.sorted.imp fun h => Text.Utf8.encode_lt_encode_iff.mpr h
  · intro hvalid
    obtain ⟨-, hpatterns, -⟩ := fault?_eq_none_iff.mp (validate_eq_ok_iff.mp hvalid)
    obtain ⟨filter, hfilter, -⟩ := exists_ofPatterns hpatterns
    exact ⟨⟨filter, hfilter⟩, FileTree.discover_ne_invalidGlob hpatterns⟩

/-- A configuration with two faults: a pattern that is no glob, and a blank entry for a rule that
does not exist. -/
def faultyConfig : Config where
  includes := ["*.yml"]
  excludes := ["["]
  rules := .ofList [("no-such-rule", .settings { mandatoryCollections := some [" "] })]

theorem Config.validate_exact_faultyConfig :
    (∃ filter, FileFilter.ofPatterns ({} : Config).includes ({} : Config).excludes = .ok filter) ∧
      faultyConfig.validate = .error (.invalid ("Invalid exclude glob pattern '[': " ++
        "error parsing glob '[': unclosed character class; missing ']'")) := by
  constructor
  · exact ((validate_exact {}).2.2.2 rfl).1
  · refine ((validate_exact faultyConfig).2.1 _).mpr
      ⟨[.version "1", .pattern "include" "*.yml"], .pattern "exclude" "[", _, _, rfl, ?_,
        .pattern rfl, rfl⟩
    intro y hy other
    rcases List.mem_cons.mp hy with rfl | hy
    · exact Requirement.version_met_iff.mpr rfl other
    · obtain rfl := List.mem_singleton.mp hy
      exact Requirement.pattern_met_iff.mpr ⟨_, rfl⟩ other

end PlaybookPolicy
