import PlaybookPolicy.Proofs.OutcomeOrder
import PlaybookPolicy.Proofs.ResolvedRules

/-!
# What is said about a rule affects only that rule

Two configurations may differ in what they say about one rule.  Then the registries made from them
differ in that rule at most: leaving it out of both gives the same registry, and if only its
severity differs, then giving it the severity of the one in the other gives the one.  Both
operations on a registry show in the findings of a run: the first leaves out the findings of the
rule, and the second gives them another severity.  The order of findings looks at neither.

## Main definitions

* `Config.AgreeBut` — the configurations say the same of all rules but one.
* `Config.optionsOf` — what a configuration says of a rule, apart from its severity.
* `Registry.without`, `Registry.regraded` — a registry without a rule, and with another severity for
  it.

## Main results

* `FileTree.findings_lint_without`, `FileTree.findings_lint_regraded` — what the operations do to a
  run.
* `Registry.without_eq_of_agreeBut`, `Registry.regraded_eq_of_agreeBut` — what they make of the
  registries of two configurations.
* `FileTree.lint_of_agreeBut` — **what is said about a rule affects only the findings of that
  rule.**
-/

namespace PlaybookPolicy

/-! ### Findings of a rule -/

namespace Rule

theorem rule_of_mem_playFindings {r : Rule} {p : Play} {x : Finding}
    (h : x ∈ r.playFindings p) : x.rule = r.id := by
  obtain ⟨message, -, rfl⟩ := List.mem_map.mp h
  rfl

theorem rule_of_mem_taskFindings {r : Rule} {file : Path} {t : Task} {x : Finding}
    (h : x ∈ r.taskFindings file t) : x.rule = r.id := by
  obtain ⟨message, -, rfl⟩ := List.mem_map.mp h
  rfl

/-- The rule with another severity, if it has the id. -/
def regraded (id : RuleId) (s : Severity) (r : Rule) : Rule :=
  if r.id = id then { r with severity := s } else r

end Rule

/-- The finding with another severity, if the rule with the id has made it. -/
def Finding.regraded (id : RuleId) (s : Severity) (x : Finding) : Finding :=
  if x.rule = id then { x with severity := s } else x

theorem map_regraded_of_rule {id key : RuleId} {s : Severity} {l : List Finding}
    (h : ∀ x ∈ l, x.rule = key) :
    l.map (Finding.regraded id s)
      = if key = id then l.map (fun x => { x with severity := s }) else l := by
  split
  · next hid =>
    refine List.map_congr_left fun x hx => ?_
    exact if_pos ((h x hx).trans hid)
  · next hid =>
    refine (List.map_congr_left fun x hx => ?_).trans (List.map_id l)
    apply if_neg
    rw [h x hx]
    exact hid

namespace Rule

theorem playFindings_regraded (id : RuleId) (s : Severity) (r : Rule) (p : Play) :
    (r.regraded id s).playFindings p = (r.playFindings p).map (Finding.regraded id s) := by
  rw [map_regraded_of_rule fun _ => rule_of_mem_playFindings]
  unfold regraded playFindings
  split
  · rw [List.map_map]
    rfl
  · rfl

theorem taskFindings_regraded (id : RuleId) (s : Severity) (r : Rule) (file : Path) (t : Task) :
    (r.regraded id s).taskFindings file t
      = (r.taskFindings file t).map (Finding.regraded id s) := by
  rw [map_regraded_of_rule fun _ => rule_of_mem_taskFindings]
  unfold regraded taskFindings
  split
  · rw [List.map_map]
    rfl
  · rfl

end Rule

/-! ### Registries -/

namespace Registry

/-- The registry without the rule of the given id. -/
def without (g : Registry) (id : RuleId) : Registry :=
  ⟨g.rules.filter fun r => r.id ≠ id⟩

/-- The registry with another severity for the rule of the given id. -/
def regraded (g : Registry) (id : RuleId) (s : Severity) : Registry :=
  ⟨g.rules.map (Rule.regraded id s)⟩

end Registry

/-- Leaving out a rule leaves out what the rule gives. -/
theorem flatMap_filter_id {F : Rule → List Finding} (hF : ∀ r, ∀ x ∈ F r, x.rule = r.id)
    (id : RuleId) (rules : List Rule) :
    (rules.filter fun r => r.id ≠ id).flatMap F
      = (rules.flatMap F).filter fun x => x.rule ≠ id := by
  induction rules with
  | nil => rfl
  | cons r rules ih =>
    rw [List.flatMap_cons, List.filter_append, ← ih]
    by_cases hid : r.id = id
    · have hnone : (F r).filter (fun x => x.rule ≠ id) = [] := by
        rw [List.filter_eq_nil_iff]
        intro x hx
        simp [hF r x hx, hid]
      rw [List.filter_cons_of_neg (by simp [hid]), hnone, List.nil_append]
    · have hall : (F r).filter (fun x => x.rule ≠ id) = F r := by
        rw [List.filter_eq_self]
        intro x hx
        simp [hF r x hx, hid]
      rw [List.filter_cons_of_pos (by simp [hid]), hall, List.flatMap_cons]

namespace PlaybookFile

/-- Without a rule, all findings in a file are there but those of the rule. -/
theorem findings_without (f : PlaybookFile) (g : Registry) (id : RuleId) :
    f.findings (g.without id) = (f.findings g).filter fun x => x.rule ≠ id := by
  unfold findings playFindings taskFindings Registry.without
  rw [List.filter_append, List.filter_flatMap, List.filter_flatMap]
  congr 1
  · refine List.flatMap_congr fun p _ => ?_
    exact flatMap_filter_id (fun _ _ => Rule.rule_of_mem_playFindings) id g.rules
  · refine List.flatMap_congr fun t _ => ?_
    exact flatMap_filter_id (fun _ _ => Rule.rule_of_mem_taskFindings) id g.rules

/-- With another severity for a rule, its findings in a file have that severity. -/
theorem findings_regraded (f : PlaybookFile) (g : Registry) (id : RuleId) (s : Severity) :
    f.findings (g.regraded id s) = (f.findings g).map (Finding.regraded id s) := by
  simp only [findings, playFindings, taskFindings, Registry.regraded, List.map_append,
    List.map_flatMap, List.flatMap_map, Rule.playFindings_regraded, Rule.taskFindings_regraded]

end PlaybookFile

/-! ### Runs -/

theorem Finding.comesBefore_regraded (id : RuleId) (s : Severity) (a b : Finding) :
    (a.regraded id s).comesBefore (b.regraded id s) = a.comesBefore b := by
  have hplace : ∀ x : Finding, (x.regraded id s).file = x.file ∧ (x.regraded id s).line = x.line ∧
      (x.regraded id s).rule = x.rule := by
    intro x
    unfold regraded
    split
    · exact ⟨rfl, rfl, rfl⟩
    · exact ⟨rfl, rfl, rfl⟩
  obtain ⟨hfile, hline, hrule⟩ := hplace a
  obtain ⟨hfile', hline', hrule'⟩ := hplace b
  unfold comesBefore compare
  rw [hfile, hline, hrule, hfile', hline', hrule']

namespace FileTree

variable {t : FileTree} {g : Registry}

/-- Without a rule, a run finds all that it finds otherwise, in the same order, but for the findings
of the rule. -/
theorem findings_lint_without (id : RuleId) (files : List Path) :
    (t.lint (g.without id) files).findings
      = (t.lint g files).findings.filter fun x => x.rule ≠ id := by
  have hfile : ∀ p, t.findingsAt (g.without id) p
      = (t.findingsAt g p).filter fun x => x.rule ≠ id := by
    intro p
    unfold findingsAt
    cases t.load p with
    | error e => rfl
    | ok f => exact f.findings_without g id
  rw [lint_eq, lint_eq]
  calc (files.flatMap (t.findingsAt (g.without id))).mergeSort Finding.comesBefore
      = ((files.flatMap (t.findingsAt g)).filter fun x => x.rule ≠ id).mergeSort
          Finding.comesBefore := by
        rw [List.filter_flatMap]
        exact congrArg (List.mergeSort · _) (List.flatMap_congr fun p _ => hfile p)
    _ = ((files.flatMap (t.findingsAt g)).mergeSort Finding.comesBefore).filter
          fun x => x.rule ≠ id := (filter_mergeSort_comm Finding.compare _ _).symm

/-- With another severity for a rule, a run finds the same in the same order, but for the severity
of the findings of the rule. -/
theorem findings_lint_regraded (id : RuleId) (s : Severity) (files : List Path) :
    (t.lint (g.regraded id s) files).findings
      = (t.lint g files).findings.map (Finding.regraded id s) := by
  have hfile : ∀ p, t.findingsAt (g.regraded id s) p
      = (t.findingsAt g p).map (Finding.regraded id s) := by
    intro p
    unfold findingsAt
    cases t.load p with
    | error e => rfl
    | ok f => exact f.findings_regraded g id s
  rw [lint_eq, lint_eq]
  calc (files.flatMap (t.findingsAt (g.regraded id s))).mergeSort Finding.comesBefore
      = ((files.flatMap (t.findingsAt g)).map (Finding.regraded id s)).mergeSort
          Finding.comesBefore := by
        rw [List.map_flatMap]
        exact congrArg (List.mergeSort · _) (List.flatMap_congr fun p _ => hfile p)
    _ = ((files.flatMap (t.findingsAt g)).mergeSort Finding.comesBefore).map
          (Finding.regraded id s) := by
        refine (List.map_mergeSort fun a _ b _ => ?_).symm
        exact (Finding.comesBefore_regraded id s a b).symm

end FileTree

/-! ### Configurations -/

namespace Config

/-- The configurations say the same of all rules but one. -/
def AgreeBut (id : RuleId) (c d : Config) : Prop :=
  ∀ key, key ≠ id.text → c.rules.get? key = d.rules.get? key

/-- What a configuration says of a rule, apart from its severity: whether it runs, and its lists. -/
def optionsOf (c : Config) (id : RuleId) : Bool × Option (List String) × Option (List String) :=
  (c.isOn id.text, (c.settingsOf id.text).bind (·.allowedEmailDomains),
    (c.settingsOf id.text).bind (·.mandatoryCollections))

theorem isOn_of_optionsOf {c d : Config} {id : RuleId} (h : c.optionsOf id = d.optionsOf id) :
    c.isOn id.text = d.isOn id.text :=
  congrArg Prod.fst h

/-- Of another rule the configurations say the same: its options and its severity. -/
theorem AgreeBut.options_eq {c d : Config} {id key : RuleId} (h : AgreeBut id c d)
    (hkey : key ≠ id) :
    c.optionsOf key = d.optionsOf key ∧ c.severityOf key.text = d.severityOf key.text := by
  have htext : key.text ≠ id.text := by
    intro heq
    apply hkey
    cases key
    cases id
    simpa using heq
  have hentry := h key.text htext
  unfold optionsOf severityOf isOn settingsOf
  rw [hentry]
  exact ⟨rfl, rfl⟩

end Config

namespace Registry

variable {c d : Config} {g g' : Registry} {id key : RuleId} {rule : Config → Rule}

/-- A configuration makes the rule from what it says of the id: the severity, and the rest from the
options. -/
structure MadeFrom (key : RuleId) (rule : Config → Rule) : Prop where
  id : ∀ c, (rule c).id = key
  regraded : ∀ c d, c.optionsOf key = d.optionsOf key →
    rule c = { rule d with severity := c.severityOf key.text }

theorem madeFrom_recipientsRule : MadeFrom recipientsId recipientsRule where
  id := fun c => rfl
  regraded := by
    intro c d h
    have hdomains : c.allowedDomains = d.allowedDomains := by
      have hlist : (c.settingsOf "email-address-validation").bind (·.allowedEmailDomains)
          = (d.settingsOf "email-address-validation").bind (·.allowedEmailDomains) :=
        congrArg (·.2.1) h
      unfold Config.allowedDomains
      rw [hlist]
    unfold recipientsRule
    rw [hdomains]
    rfl

theorem madeFrom_collectionsRule : MadeFrom collectionsId collectionsRule where
  id := fun c => rfl
  regraded := by
    intro c d h
    have hnames : c.mandatoryCollections = d.mandatoryCollections := by
      have hlist : (c.settingsOf "must_include_collections").bind (·.mandatoryCollections)
          = (d.settingsOf "must_include_collections").bind (·.mandatoryCollections) :=
        congrArg (·.2.2) h
      unfold Config.mandatoryCollections
      rw [hlist]
    unfold collectionsRule
    rw [hnames]
    rfl

/-- The rule, if the configuration leaves it on. -/
def ifOn (c : Config) (key : RuleId) (rule : Config → Rule) : List Rule :=
  if c.isOn key.text then [rule c] else []

theorem rules_eq_ifOn (hc : ofConfig c = .ok g) :
    g.rules = ifOn c recipientsId recipientsRule ++ ifOn c collectionsId collectionsRule :=
  rules_of_ofConfig hc

theorem MadeFrom.ifOn_eq (hrule : MadeFrom key rule) (h : Config.AgreeBut id c d)
    (hkey : key ≠ id) : ifOn c key rule = ifOn d key rule := by
  obtain ⟨hoptions, hseverity⟩ := h.options_eq hkey
  have hsame : rule c = rule d := by
    rw [hrule.regraded c d hoptions, hseverity]
    exact (hrule.regraded d d rfl).symm
  unfold ifOn
  rw [Config.isOn_of_optionsOf hoptions, hsame]

/-- Leaving out a rule leaves out what two configurations may differ in. -/
theorem MadeFrom.filter_ifOn (hrule : MadeFrom key rule) (h : Config.AgreeBut id c d) :
    (ifOn c key rule).filter (fun r => r.id ≠ id)
      = (ifOn d key rule).filter fun r => r.id ≠ id := by
  -- the rule itself is left out of both, and any other is the same in both
  by_cases hkey : key = id
  · have hnone : ∀ e : Config, (ifOn e key rule).filter (fun r => r.id ≠ id) = [] := by
      intro e
      unfold ifOn
      split
      · simp [hrule.id, hkey]
      · rfl
    rw [hnone c, hnone d]
  · rw [hrule.ifOn_eq h hkey]

/-- If only the severity differs, giving the rule that of the other makes the two the same. -/
theorem MadeFrom.map_regraded_ifOn (hrule : MadeFrom key rule) (h : Config.AgreeBut id c d)
    (hoptions : c.optionsOf id = d.optionsOf id) :
    (ifOn d key rule).map (Rule.regraded id (c.severityOf id.text)) = ifOn c key rule := by
  by_cases hkey : key = id
  · subst hkey
    have hregraded : (rule d).regraded key (c.severityOf key.text) = rule c := by
      rw [Rule.regraded, if_pos (hrule.id d), hrule.regraded c d hoptions]
    unfold ifOn
    rw [Config.isOn_of_optionsOf hoptions]
    split
    · rw [List.map_singleton, hregraded]
    · rfl
  · have hother : (rule d).regraded id (c.severityOf id.text) = rule d := by
      rw [Rule.regraded, if_neg]
      rw [hrule.id d]
      exact hkey
    rw [hrule.ifOn_eq h hkey]
    unfold ifOn
    split
    · rw [List.map_singleton, hother]
    · rfl

/-- **Without a rule, registries do not show what is said about it.** -/
theorem without_eq_of_agreeBut (hc : ofConfig c = .ok g) (hd : ofConfig d = .ok g')
    (h : Config.AgreeBut id c d) : g.without id = g'.without id := by
  unfold without
  rw [rules_eq_ifOn hc, rules_eq_ifOn hd, List.filter_append, List.filter_append,
    madeFrom_recipientsRule.filter_ifOn h, madeFrom_collectionsRule.filter_ifOn h]

/-- **Registries that differ in the severity of a rule become the same with the severity of
one.** -/
theorem regraded_eq_of_agreeBut (hc : ofConfig c = .ok g) (hd : ofConfig d = .ok g')
    (h : Config.AgreeBut id c d) (hoptions : c.optionsOf id = d.optionsOf id) :
    g'.regraded id (c.severityOf id.text) = g := by
  have hrules : g'.rules.map (Rule.regraded id (c.severityOf id.text)) = g.rules := by
    rw [rules_eq_ifOn hc, rules_eq_ifOn hd, List.map_append,
      madeFrom_recipientsRule.map_regraded_ifOn h hoptions,
      madeFrom_collectionsRule.map_regraded_ifOn h hoptions]
  cases g
  exact congrArg Registry.mk hrules

/-- A rule that is switched off is not in the registry. -/
theorem without_eq_self (hc : ofConfig c = .ok g) (hoff : c.isOn id.text = false) :
    g.without id = g := by
  have hpiece : ∀ {key : RuleId} {rule : Config → Rule}, MadeFrom key rule →
      ∀ r ∈ ifOn c key rule, r.id ≠ id := by
    intro key rule hrule r hr hid
    unfold ifOn at hr
    split at hr
    · next hon =>
      rw [List.mem_singleton] at hr
      rw [hr, hrule.id] at hid
      rw [hid, hoff] at hon
      cases hon
    · cases hr
  have hrules : g.rules.filter (fun r => r.id ≠ id) = g.rules := by
    rw [List.filter_eq_self]
    intro r hr
    rw [rules_eq_ifOn hc, List.mem_append] at hr
    rw [decide_eq_true_eq]
    rcases hr with hr | hr
    · exact hpiece madeFrom_recipientsRule r hr
    · exact hpiece madeFrom_collectionsRule r hr
  cases g
  exact congrArg Registry.mk hrules

end Registry

/-! ### Two runs -/

namespace FileTree

/-- **What is said about a rule affects only the findings of that rule.**  Two configurations that
agree on all other rules lead to the same findings of these, in the same order, and to the same
failures.  If one of them switches the rule off, its findings are those of the other without those
of the rule; and if they differ in the severity of the rule only, so do the findings. -/
theorem lint_of_agreeBut {c d : Config} {g g' : Registry} {id : RuleId}
    (hc : Registry.ofConfig c = .ok g) (hd : Registry.ofConfig d = .ok g')
    (h : Config.AgreeBut id c d) (t : FileTree) (files : List Path) :
    ((t.lint g files).findings.filter fun x => x.rule ≠ id)
        = ((t.lint g' files).findings.filter fun x => x.rule ≠ id) ∧
      (t.lint g files).failures = (t.lint g' files).failures ∧
      (t.lint g files).filesChecked = (t.lint g' files).filesChecked ∧
      (c.rules.get? id.text = some (.enabled false) →
        (t.lint g files).findings
          = (t.lint g' files).findings.filter fun x => x.rule ≠ id) ∧
      (c.optionsOf id = d.optionsOf id →
        (t.lint g files).findings = (t.lint g' files).findings.map fun x =>
          if x.rule = id then { x with severity := c.severityOf id.text } else x) := by
  have hwithout := Registry.without_eq_of_agreeBut hc hd h
  have hfindings := congrArg (fun g => (t.lint g files).findings) hwithout
  simp only [findings_lint_without] at hfindings
  refine ⟨hfindings, ?_, ?_, ?_, ?_⟩
  · rw [lint_eq, lint_eq]
  · rw [lint_eq, lint_eq]
  · intro hoff
    have hself : g.without id = g := by
      apply Registry.without_eq_self hc
      rw [Config.isOn, hoff]
      rfl
    rw [← hfindings, ← findings_lint_without, hself]
  · intro hoptions
    have hregraded := Registry.regraded_eq_of_agreeBut hc hd h hoptions
    rw [← hregraded, findings_lint_regraded]
    rfl

/-- The mail rule is switched off. -/
def mailOff : Config where
  rules := TextMap.insert ∅ "email-address-validation" (.enabled false)

/-- The mail rule has another severity than its own. -/
def mailLow : Config where
  rules := TextMap.insert ∅ "email-address-validation" (.settings { severity := some .low })

theorem agreeBut_mailLow (c : Config)
    (h : c.rules = ∅ ∨ ∃ e, c.rules = TextMap.insert ∅ "email-address-validation" e) :
    Config.AgreeBut recipientsId c mailLow := by
  intro key hkey
  have hne : key ≠ "email-address-validation" := hkey
  have hlow : mailLow.rules.get? key = none := by
    show (TextMap.insert ∅ _ _).get? key = none
    rw [TextMap.get?_insert_of_ne _ _ hne, TextMap.get?_empty]
  rw [hlow]
  rcases h with h | ⟨e, h⟩
  · rw [h, TextMap.get?_empty]
  · rw [h, TextMap.get?_insert_of_ne _ _ hne, TextMap.get?_empty]

theorem lint_of_agreeBut_mailLow :
    Registry.ofConfig mailOff = .ok ⟨[{ check := .collections .builtin }]⟩ ∧
      Registry.ofConfig mailLow = .ok ⟨[{ check := .recipients .builtin, severity := .low },
        { check := .collections .builtin }]⟩ ∧
      Registry.ofConfig ({} : Config) = .ok .builtin ∧
      Config.AgreeBut recipientsId mailOff mailLow ∧ Config.AgreeBut recipientsId {} mailLow ∧
      mailOff.rules.get? recipientsId.text = some (.enabled false) ∧
      ({} : Config).optionsOf recipientsId = mailLow.optionsOf recipientsId ∧
      (sampleTree.lint ⟨[{ check := .collections .builtin }]⟩
          [Path.ofText "b.yml", Path.ofText "a.yml"]).findings
        = ((sampleTree.lint ⟨[{ check := .recipients .builtin, severity := .low },
            { check := .collections .builtin }]⟩
              [Path.ofText "b.yml", Path.ofText "a.yml"]).findings.filter
                fun x => x.rule ≠ recipientsId) ∧
      (sampleTree.lint .builtin [Path.ofText "b.yml", Path.ofText "a.yml"]).findings
        = (sampleTree.lint ⟨[{ check := .recipients .builtin, severity := .low },
            { check := .collections .builtin }]⟩
              [Path.ofText "b.yml", Path.ofText "a.yml"]).findings.map
                fun x => if x.rule = recipientsId then { x with severity := .veryHigh } else x := by
  have hoff : mailOff.rules.get? recipientsId.text = some (.enabled false) := by decide
  have hoptions : ({} : Config).optionsOf recipientsId = mailLow.optionsOf recipientsId := by
    decide
  have hagree := agreeBut_mailLow mailOff (.inr ⟨_, rfl⟩)
  have hagree' := agreeBut_mailLow {} (.inl rfl)
  exact ⟨rfl, rfl, rfl, hagree, hagree', hoff, hoptions,
    (lint_of_agreeBut rfl rfl hagree sampleTree _).2.2.2.1 hoff,
    (lint_of_agreeBut rfl rfl hagree' sampleTree _).2.2.2.2 hoptions⟩

end FileTree

end PlaybookPolicy
