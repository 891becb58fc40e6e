import Mathlib.Data.List.Perm.Basic
import Mathlib.Data.List.ProdSigma
import PlaybookPolicy.Proofs.LoadedFile
import PlaybookPolicy.Proofs.MailRecipients
import PlaybookPolicy.Proofs.ResolvedRules

/-!
# A run finds the violations, and nothing else

What is wrong with a file is said here without the rules and their registry: which of its tasks send
mail to whom they must not, and which of its plays lack which collection.  A run with the rules of a
configuration reports just that, once each.

## Main definitions

* `PlaybookFile.mailViolations`, `PlaybookFile.collectionViolations` — what a configuration objects
  to in a file.
* `PlaybookFile.Complies` — the configuration has no objection.

## Main results

* `PlaybookFile.findings_perm` — the findings in a file are its violations.
* `FileTree.lint_sound_complete` — **a run reports every violation and every file that does not
  load, once each, and nothing else.**
-/

namespace PlaybookPolicy

/-! ### Violations -/

namespace Task

/-- The task sends mail to someone it must not. -/
def LeaksMail (t : Task) (a : AllowedDomains) : Prop :=
  t.SendsMail ∧ ∃ v ∈ t.recipientValues, ¬a.Admits v

instance (t : Task) (a : AllowedDomains) : Decidable (t.LeaksMail a) :=
  inferInstanceAs (Decidable (t.SendsMail ∧ ∃ v ∈ t.recipientValues, ¬a.Admits v))

theorem not_leaksMail_iff {t : Task} {a : AllowedDomains} :
    ¬t.LeaksMail a ↔ (t.SendsMail → ∀ v ∈ t.recipientValues, a.Admits v) := by
  simp [LeaksMail]

theorem invalidRecipients_ne_nil_iff {t : Task} {a : AllowedDomains} :
    t.invalidRecipients a ≠ [] ↔ t.LeaksMail a := by
  rw [invalidRecipients_eq, LeaksMail]
  by_cases hmail : t.SendsMail
  · simp [hmail]
  · simp [hmail]

/-- The complaint about a task that leaks mail names the recipients it must not have. -/
theorem recipientComplaint?_eq (t : Task) (a : AllowedDomains) :
    t.recipientComplaint? a = if t.LeaksMail a then
      some ("Email recipients must use an allowed domain: " ++ ", ".intercalate
        ((t.recipientValues.filter fun v => ¬a.Admits v).map recipientText)) else none := by
  rw [recipientComplaint?]
  simp only [List.isEmpty_iff]
  split
  · next hnone =>
    rw [if_neg]
    rw [← invalidRecipients_ne_nil_iff, hnone]
    exact not_not_intro rfl
  · next hsome =>
    have hleaks := invalidRecipients_ne_nil_iff.mp hsome
    rw [if_pos hleaks, invalidRecipients_eq, if_pos hleaks.1]
    rfl

end Task

namespace PlaybookFile

/-- One finding for each task that sends mail to someone it must not. -/
def mailViolations (f : PlaybookFile) (c : Config) : List Finding :=
  (f.tasks.filter fun t => t.LeaksMail c.allowedDomains).map fun t =>
    { rule := recipientsId
      severity := c.severityOf "email-address-validation"
      message := "Email recipients must use an allowed domain: " ++ ", ".intercalate
        ((t.recipientValues.filter fun v => ¬c.allowedDomains.Admits v).map recipientText)
      file := f.path
      line := t.line
      task := t.name }

/-- One finding for each pair of a play and a mandatory collection that it does not declare. -/
def collectionViolations (f : PlaybookFile) (c : Config) : List Finding :=
  ((f.plays ×ˢ c.mandatoryCollections.names).filter fun e => e.2 ∉ e.1.collections).map fun e =>
    { rule := collectionsId
      severity := c.severityOf "must_include_collections"
      message := "Collection " ++ e.2 ++ " needs to be included"
      file := f.path
      line := e.1.line
      task := none }

/-- What a configuration objects to in a file. -/
def violations (f : PlaybookFile) (c : Config) : List Finding :=
  (if c.isOn "email-address-validation" then f.mailViolations c else []) ++
    if c.isOn "must_include_collections" then f.collectionViolations c else []

/-- The configuration does not object to the file: its mail goes to admitted recipients, and its
plays declare the mandatory collections, as far as the rules on them run. -/
def Complies (f : PlaybookFile) (c : Config) : Prop :=
  (c.isOn "email-address-validation" = true → ∀ t ∈ f.tasks, t.SendsMail →
    ∀ v ∈ t.recipientValues, c.allowedDomains.Admits v) ∧
  (c.isOn "must_include_collections" = true → ∀ play ∈ f.plays,
    ∀ name ∈ c.mandatoryCollections.names, name ∈ play.collections)

theorem mailViolations_eq_nil_iff {f : PlaybookFile} {c : Config} :
    f.mailViolations c = [] ↔ ∀ t ∈ f.tasks, t.SendsMail →
      ∀ v ∈ t.recipientValues, c.allowedDomains.Admits v := by
  simp only [mailViolations, List.map_eq_nil_iff, List.filter_eq_nil_iff, decide_eq_true_eq,
    Task.not_leaksMail_iff]

theorem collectionViolations_eq_nil_iff {f : PlaybookFile} {c : Config} :
    f.collectionViolations c = [] ↔ ∀ play ∈ f.plays,
      ∀ name ∈ c.mandatoryCollections.names, name ∈ play.collections := by
  simp only [collectionViolations, List.map_eq_nil_iff, List.filter_eq_nil_iff,
    decide_eq_true_eq, not_not, Prod.forall, List.mem_product, and_imp]
  constructor
  · intro h play hplay name hname
    exact h play name hplay hname
  · intro h play name hplay hname
    exact h play hplay name hname

/-- A file complies exactly if it holds no violation. -/
theorem violations_eq_nil_iff {f : PlaybookFile} {c : Config} :
    f.violations c = [] ↔ f.Complies c := by
  rw [violations, List.append_eq_nil_iff, Complies, ← mailViolations_eq_nil_iff,
    ← collectionViolations_eq_nil_iff]
  cases c.isOn "email-address-validation" <;> cases c.isOn "must_include_collections" <;> simp

/-! ### Findings -/

theorem flatMap_ite_singleton {α β : Type} (p : α → Prop) [DecidablePred p] (f : α → β)
    (l : List α) : (l.flatMap fun x => if p x then [f x] else []) = (l.filter p).map f := by
  induction l with
  | nil => rfl
  | cons x l ih => by_cases h : p x <;> simp [h, ih]

theorem flatMap_recipientsRule (f : PlaybookFile) (c : Config) :
    (f.tasks.flatMap fun t => (Registry.recipientsRule c).taskFindings f.path t)
      = f.mailViolations c := by
  rw [mailViolations, ← flatMap_ite_singleton]
  congr 1
  funext t
  show List.map _ (t.recipientComplaint? c.allowedDomains).toList = _
  rw [Task.recipientComplaint?_eq]
  split <;> rfl

theorem flatMap_collectionsRule {f : PlaybookFile} (c : Config)
    (h : ∀ play ∈ f.plays, play.kind = .playbook ∧ play.path = f.path) :
    (f.plays.flatMap fun play => (Registry.collectionsRule c).playFindings play)
      = f.collectionViolations c := by
  rw [collectionViolations]
  show _ = ((f.plays.flatMap fun play => _).filter _).map _
  rw [List.filter_flatMap, List.map_flatMap]
  refine List.flatMap_congr ?_
  intro play hplay
  obtain ⟨hkind, hpath⟩ := h play hplay
  show List.map _ (List.map _ (play.missingCollections c.mandatoryCollections)) = _
  have hdeclares : (fun name => !play.declares name)
      = (fun e : Play × String => decide (e.2 ∉ e.1.collections)) ∘ Prod.mk play := by
    funext name
    simp [Play.declares]
  rw [Play.missingCollections, if_pos hkind, List.filter_map, List.map_map, List.map_map, hpath,
    hdeclares]
  rfl

/-- **The findings in a file are its violations**, those in its plays first. -/
theorem findings_eq {f : PlaybookFile} {c : Config} {g : Registry}
    (hg : Registry.ofConfig c = .ok g)
    (h : ∀ play ∈ f.plays, play.kind = .playbook ∧ play.path = f.path) :
    f.findings g =
      (if c.isOn "must_include_collections" then f.collectionViolations c else []) ++
        if c.isOn "email-address-validation" then f.mailViolations c else [] := by
  -- each rule has a say in plays or in tasks, but not in both
  have hplays : ∀ play, (Registry.recipientsRule c).playFindings play = [] := fun play => rfl
  have htasks : ∀ t, (Registry.collectionsRule c).taskFindings f.path t = [] := fun t => rfl
  rw [findings, playFindings, taskFindings, Registry.rules_of_ofConfig hg,
    ← flatMap_recipientsRule, ← flatMap_collectionsRule c h]
  cases c.isOn "email-address-validation" <;> cases c.isOn "must_include_collections" <;>
    simp [hplays, htasks]

theorem findings_perm {f : PlaybookFile} {c : Config} {g : Registry}
    (hg : Registry.ofConfig c = .ok g)
    (h : ∀ play ∈ f.plays, play.kind = .playbook ∧ play.path = f.path) :
    (f.findings g).Perm (f.violations c) := by
  rw [findings_eq hg h]
  exact List.perm_append_comm

end PlaybookFile

/-! ### Runs -/

namespace FileTree

/-- What a configuration objects to in the file that a path leads to; nothing if it does not load.
-/
def violationsAt (t : FileTree) (c : Config) (p : Path) : List Finding :=
  match t.load p with
  | .ok f => f.violations c
  | .error _ => []

theorem findingsAt_perm {t : FileTree} {c : Config} {g : Registry}
    (hg : Registry.ofConfig c = .ok g) (p : Path) :
    (t.findingsAt g p).Perm (t.violationsAt c p) := by
  rw [findingsAt, violationsAt]
  cases hf : t.load p with
  | error e => exact .nil
  | ok f =>
    obtain ⟨hpath, hplays⟩ := path_of_load hf
    refine PlaybookFile.findings_perm hg ?_
    rw [hpath]
    exact hplays

theorem findings_perm {c : Config} {g : Registry} (hg : Registry.ofConfig c = .ok g) (t : FileTree)
    (files : List Path) : (t.lint g files).findings.Perm (files.flatMap (t.violationsAt c)) := by
  rw [lint_eq]
  refine (List.mergeSort_perm _ _).trans ?_
  exact List.Perm.flatMap_left files fun p _ => findingsAt_perm hg p

theorem failures_perm (t : FileTree) (g : Registry) (files : List Path) :
    (t.lint g files).failures.Perm (files.filterMap t.failureAt?) := by
  rw [lint_eq]
  exact List.mergeSort_perm _ _

/-- A file is clean if it loads and complies. -/
theorem clean_iff {t : FileTree} {c : Config} {p : Path} :
    (t.violationsAt c p = [] ∧ t.failureAt? p = none) ↔
      ∃ f, t.load p = .ok f ∧ f.Complies c := by
  rw [violationsAt, failureAt?]
  cases t.load p with
  | error e => simp
  | ok f => simp [PlaybookFile.violations_eq_nil_iff]

/-- **A run reports every violation and every file that does not load, once each, and nothing
else.**  It passes exactly if every file loads and complies with the configuration: as far as the
rules on them run, all mail goes to admitted recipients, and every play declares the mandatory
collections, of which none counts twice. -/
theorem lint_sound_complete {c : Config} {g : Registry} (hg : Registry.ofConfig c = .ok g) :
    c.mandatoryCollections.names.Nodup ∧ ∀ (t : FileTree) (files : List Path),
      (t.lint g files).findings.Perm (files.flatMap fun p =>
        match t.load p with
        | .ok f =>
          (if c.isOn "email-address-validation" then f.mailViolations c else []) ++
            if c.isOn "must_include_collections" then f.collectionViolations c else []
        | .error _ => []) ∧
      (t.lint g files).failures.Perm (files.filterMap fun p =>
        match t.load p with
        | .ok _ => none
        | .error error => some { path := p, error }) ∧
      (t.lint g files).filesChecked = files.length ∧
      ((t.lint g files).passed = true ↔ ∀ p ∈ files, ∃ f, t.load p = .ok f ∧
        (c.isOn "email-address-validation" = true → ∀ task ∈ f.tasks, task.SendsMail →
          ∀ v ∈ task.recipientValues, c.allowedDomains.Admits v) ∧
        (c.isOn "must_include_collections" = true → ∀ play ∈ f.plays,
          ∀ name ∈ c.mandatoryCollections.names, name ∈ play.collections)) := by
  refine ⟨c.nodup_mandatoryCollections, ?_⟩
  intro t files
  have hfindings := findings_perm hg t files
  have hfailures := failures_perm t g files
  refine ⟨hfindings, hfailures, ?_, ?_⟩
  · rw [lint_eq]
  -- what is sorted is a permutation of what was gathered, so both are empty or neither is
  · rw [Outcome.passed, Bool.and_eq_true, List.isEmpty_iff, List.isEmpty_iff,
      ← List.perm_nil, hfindings.congr_left, List.perm_nil, List.flatMap_eq_nil_iff,
      ← List.perm_nil, hfailures.congr_left, List.perm_nil, List.filterMap_eq_nil_iff,
      ← forall₂_and]
    exact forall₂_congr fun p _ => clean_iff

theorem lint_sound_complete_sampleTree :
    Registry.ofConfig ({} : Config) = .ok .builtin ∧
    ((sampleTree.lint .builtin [Path.ofText "b.yml", Path.ofText "a.yml"]).findings.map
      (·.message)).Perm
        ["Email recipients must use an allowed domain: x@evil.org, 7",
         "Collection internal.collection.role needs to be included"] := by
  have hg : Registry.ofConfig ({} : Config) = .ok .builtin := rfl
  refine ⟨hg, ?_⟩
  obtain ⟨hfindings, -⟩ := (lint_sound_complete hg).2 sampleTree
    [Path.ofText "b.yml", Path.ofText "a.yml"]
  exact (hfindings.map _).trans (.of_eq (by decide +kernel))

end FileTree

end PlaybookPolicy
