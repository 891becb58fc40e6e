import PlaybookPolicy.Proofs.ExitCode

/-!
# Checking and listing agree on the configuration

Listing the rules looks at the configuration and at nothing else, and checking looks at it before
anything else.  So what keeps the rules from being listed keeps the files from being checked, with
the same exit code and the same words; and where the rules can be listed, a check that fails has
failed to find its files.

## Main definitions

* `FileTree.RulesMisfit` — the configuration is sound, but does not fit the rules there are.

## Main results

* `FileTree.listRules_stages` — all that can become of a listing.
* `FileTree.check_agrees_listRules` — **a check fails as the listing does, or on its files.**
-/

namespace PlaybookPolicy

namespace FileTree

variable {t : FileTree} {listing : ListOptions} {c : Config}

/-- The configuration of the run is sound, but does not fit the rules there are. -/
def RulesMisfit (t : FileTree) (file? : Option String) : Prop :=
  ∃ c e, t.Configures file? c ∧ Registry.ofConfig c = .error e

/-! ### The stages of a listing -/

theorem listRules_of_setUp_error {e : Failure} (h : t.setUp listing.config = .error e) :
    t.listRules listing = .ofFailure e := by
  rw [listRules, h]
  rfl

theorem listRules_of_setUp {g : Registry} (h : t.setUp listing.config = .ok (c, g)) :
    t.listRules listing = { exitCode := 0, output := g.list (listing.format.getD c.format) } := by
  rw [listRules, h]
  rfl

theorem listRules_of_malformed (h : t.ConfigMalformed listing.config) :
    t.listRules listing = .ofFailure (.config .malformed) :=
  listRules_of_setUp_error (setUp_of_config_error (loadConfig_eq_malformed_iff.mpr h))

theorem exists_setUp_error_of_unusable {file? : Option String}
    (h : t.ConfigUnusable file? ∨ t.RulesMisfit file?) :
    ∃ e : Failure, e.exitCode = 2 ∧ t.setUp file? = .error e := by
  rcases h with h | ⟨c, e, hconfig, he⟩
  · obtain ⟨e, he, hne⟩ := loadConfig_unusable_iff.mpr h
    exact ⟨.config e, exitCode_config_of_ne hne, setUp_of_config_error he⟩
  · exact ⟨.rule e, rfl, setUp_of_rule_error hconfig he⟩

theorem exitCode_listRules_of_unusable
    (h : t.ConfigUnusable listing.config ∨ t.RulesMisfit listing.config) :
    (t.listRules listing).exitCode = 2 := by
  obtain ⟨e, hcode, he⟩ := exists_setUp_error_of_unusable h
  rw [listRules_of_setUp_error he]
  exact hcode

/-- **A listing fails on its configuration, or has rules to list.** -/
theorem listRules_stages (t : FileTree) (file? : Option String) :
    t.ConfigMalformed file? ∨ (t.ConfigUnusable file? ∨ t.RulesMisfit file?) ∨
      ∃ c g, t.Configures file? c ∧ Registry.ofConfig c = .ok g := by
  -- a check of no path at all gets through the same stages, and finds its files
  rcases t.stages { paths := [], config := file? } with
    h | (h | ⟨c, h⟩) | ⟨c, g, files, hconfig, hrules, -⟩
  · exact .inl h
  · exact .inr (.inl (.inl h))
  · obtain ⟨hconfig, ⟨e, he⟩ | ⟨g, e, hrules, -⟩⟩ := h
    · exact .inr (.inl (.inr ⟨c, e, hconfig, he⟩))
    · exact .inr (.inr ⟨c, g, hconfig, hrules⟩)
  · exact .inr (.inr ⟨c, g, hconfig, hrules⟩)

/-! ### Exit codes -/

theorem exitCode_listRules_of_rules {g : Registry} (hconfig : t.Configures listing.config c)
    (hrules : Registry.ofConfig c = .ok g) : (t.listRules listing).exitCode = 0 := by
  rw [listRules_of_setUp (setUp_of_ok hconfig hrules)]

theorem exitCode_listRules_eq_three_iff :
    (t.listRules listing).exitCode = 3 ↔ t.ConfigMalformed listing.config := by
  constructor
  · intro hcode
    rcases t.listRules_stages listing.config with h | h | ⟨c, g, hconfig, hrules⟩
    · exact h
    · rw [exitCode_listRules_of_unusable h] at hcode
      cases hcode
    · rw [exitCode_listRules_of_rules hconfig hrules] at hcode
      cases hcode
  · intro h
    rw [listRules_of_malformed h]
    rfl

theorem exitCode_listRules_eq_two_iff :
    (t.listRules listing).exitCode = 2 ↔
      t.ConfigUnusable listing.config ∨ t.RulesMisfit listing.config := by
  constructor
  · intro hcode
    rcases t.listRules_stages listing.config with h | h | ⟨c, g, hconfig, hrules⟩
    · rw [exitCode_listRules_eq_three_iff.mpr h] at hcode
      cases hcode
    · exact h
    · rw [exitCode_listRules_of_rules hconfig hrules] at hcode
      cases hcode
  · exact exitCode_listRules_of_unusable

theorem exitCode_listRules_eq_zero_iff :
    (t.listRules listing).exitCode = 0 ↔
      ∃ c g, t.Configures listing.config c ∧ Registry.ofConfig c = .ok g := by
  constructor
  · intro hcode
    rcases t.listRules_stages listing.config with h | h | h
    · rw [exitCode_listRules_eq_three_iff.mpr h] at hcode
      cases hcode
    · rw [exitCode_listRules_of_unusable h] at hcode
      cases hcode
    · exact h
  · rintro ⟨c, g, hconfig, hrules⟩
    exact exitCode_listRules_of_rules hconfig hrules

/-! ### Agreement -/

/-- What keeps the rules from being listed keeps the files from being checked. -/
theorem check_eq_listRules (options : CheckOptions) (color : Option ColorChoice)
    (hconfig : options.config = listing.config) (h : (t.listRules listing).exitCode ≠ 0) :
    ∃ e : Failure, t.listRules listing = .ofFailure e ∧ t.check options color = .ofFailure e := by
  cases hsetUp : t.setUp listing.config with
  | error e =>
    refine ⟨e, listRules_of_setUp_error hsetUp, check_of_setUp_error ?_ color⟩
    rw [hconfig, hsetUp]
  | ok r =>
    rw [listRules_of_setUp hsetUp] at h
    exact absurd rfl h

/-- A check behind a configuration that fits ends in two only if its files cannot be found. -/
theorem exists_discovery_of_exitCode {g : Registry} {options : CheckOptions}
    {color : Option ColorChoice} (hconfig : t.Configures options.config c)
    (hrules : Registry.ofConfig c = .ok g) (hcode : (t.check options color).exitCode = 2) :
    ∃ e, t.discover c (options.paths.map Path.ofText) = .error e ∧
      t.check options color = .ofFailure (.discovery e) := by
  have hsetUp := check_of_setUp (setUp_of_ok hconfig hrules) color
  cases hfiles : t.discover c (options.paths.map Path.ofText) with
  | error e =>
    refine ⟨e, rfl, ?_⟩
    rw [hsetUp, outcome, hfiles]
    rfl
  | ok files =>
    rw [exitCode_of_lints ⟨hconfig, hrules, hfiles⟩] at hcode
    split at hcode <;> cases hcode

/-- **A check fails as the listing does, or on its files.**  With the same file for the
configuration, whatever paths, form of output and colours the check is given: if the listing fails,
then the check ends with the same exit code, prints the same error and nothing else; and if the
listing succeeds, then the check does not end in three, and ends in two only if the files to lint
cannot be found.  The listing fails with three exactly if the text of the configuration is none, and
with two exactly if it cannot be used or does not fit the rules. -/
theorem check_agrees_listRules (t : FileTree) (file? : Option String) (options : CheckOptions)
    (listing : ListOptions) (color : Option ColorChoice) :
    let listed := t.listRules { listing with config := file? }
    let checked := t.check { options with config := file? } color
    (listed.exitCode ≠ 0 →
        checked.exitCode = listed.exitCode ∧ checked.complaint = listed.complaint ∧
          (∃ e : Failure, listed.complaint = "Error: " ++ e.message ++ "\n") ∧
            checked.output = "" ∧ listed.output = "") ∧
      (listed.exitCode = 0 →
        checked.exitCode ≠ 3 ∧ (checked.exitCode = 2 →
          ∃ c e, t.Configures file? c ∧
            t.discover c (options.paths.map Path.ofText) = .error e ∧
              checked.complaint = "Error: " ++ (Failure.discovery e).message ++ "\n")) ∧
      (listed.exitCode = 3 ↔ t.ConfigMalformed file?) ∧
      (listed.exitCode = 2 ↔ t.ConfigUnusable file? ∨ t.RulesMisfit file?) ∧
      (listed.exitCode = 0 ↔ ∃ c g, t.Configures file? c ∧ Registry.ofConfig c = .ok g) := by
  intro listed checked
  refine ⟨fun h => ?_, fun h => ?_, exitCode_listRules_eq_three_iff,
    exitCode_listRules_eq_two_iff, exitCode_listRules_eq_zero_iff⟩
  · obtain ⟨e, hlisted, hchecked⟩ :=
      check_eq_listRules (t := t) { options with config := file? } color rfl h
    show checked.exitCode = listed.exitCode ∧ _
    rw [show listed = .ofFailure e from hlisted, show checked = .ofFailure e from hchecked]
    exact ⟨rfl, rfl, ⟨e, rfl⟩, rfl, rfl⟩
  · obtain ⟨c, g, hconfig, hrules⟩ := exitCode_listRules_eq_zero_iff.mp h
    constructor
    · intro hcode
      have hmalformed : t.ConfigMalformed file? := exitCode_eq_three_iff.mp hcode
      have hlisted : listed.exitCode = 3 := exitCode_listRules_eq_three_iff.mpr hmalformed
      rw [h] at hlisted
      cases hlisted
    · intro hcode
      obtain ⟨e, hfiles, hchecked⟩ := exists_discovery_of_exitCode hconfig hrules hcode
      refine ⟨c, e, hconfig, hfiles, ?_⟩
      rw [show checked = _ from hchecked]
      rfl

end FileTree

end PlaybookPolicy
