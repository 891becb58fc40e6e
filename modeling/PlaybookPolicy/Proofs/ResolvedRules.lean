import Mathlib.Data.List.Nodup
import PlaybookPolicy.Rule.Registry

/-!
# The rules that a configuration leaves on

A configuration says of each built-in rule whether it runs, and which options it runs with; what it
does not say is taken from the rule itself.  Here the answers are read off the configuration, and
the registry made from it is shown to hold just the rules that they describe.

## Main definitions

* `Config.isOn` — a rule runs.
* `Config.severityOf`, `Config.allowedDomains`, `Config.mandatoryCollections` — the options of the
  rules that run.

## Main results

* `Registry.addConfigured_cons_eq_ok_iff` — what a configuration makes of one built-in rule.
* `Registry.rules_of_ofConfig` — **the rules that a configuration leaves on.**
* `Config.nodup_mandatoryCollections` — no collection is mandatory twice.
-/

namespace PlaybookPolicy

/-! ### What a configuration says -/

namespace Config

/-- The rule runs unless the configuration switches it off. -/
def isOn (c : Config) (id : String) : Bool :=
  c.rules.get? id ≠ some (.enabled false)

/-- The settings of a rule, if there are any. -/
def settingsOf (c : Config) (id : String) : Option RuleSettings :=
  (c.rules.get? id).bind RuleEntry.settings?

/-- How grave the findings of a rule are. -/
def severityOf (c : Config) (id : String) : Severity :=
  ((c.settingsOf id).bind (·.severity)).getD .veryHigh

/-- The domains that mail may go to. -/
def allowedDomains (c : Config) : AllowedDomains :=
  match (c.settingsOf "email-address-validation").bind (·.allowedEmailDomains) with
  | some l => .ofList l
  | none => .builtin

/-- The collections that every play must declare. -/
def mandatoryCollections (c : Config) : MandatoryCollections :=
  match (c.settingsOf "must_include_collections").bind (·.mandatoryCollections) with
  | some l => .ofList l
  | none => .builtin

theorem isOn_eq (c : Config) (id : String) :
    c.isOn id = !(c.rules.get? id).any fun e => !e.isEnabled := by
  unfold isOn
  rcases c.rules.get? id with _ | (_ | _) | settings
  · rfl
  · rfl
  · rfl
  · simp [RuleEntry.isEnabled]

end Config

/-! ### One rule -/

theorem Rule.recipients_eq_ok {settings : Option RuleSettings} {r : Rule}
    (h : Rule.recipients settings = .ok r) :
    r = { check := .recipients (match settings.bind (·.allowedEmailDomains) with
            | some l => AllowedDomains.ofList l
            | none => .builtin)
          severity := Rule.severityOf settings } := by
  rw [recipients] at h
  split at h
  · cases h
  · cases h
    rfl

theorem Rule.collections_eq_ok {settings : Option RuleSettings} {r : Rule}
    (h : Rule.collections settings = .ok r) :
    r = { check := .collections (match settings.bind (·.mandatoryCollections) with
            | some l => MandatoryCollections.ofList l
            | none => .builtin)
          severity := Rule.severityOf settings } := by
  rw [collections] at h
  split at h
  · cases h
  · cases h
    rfl

namespace Registry

/-- **What a configuration makes of one built-in rule.**  The rule is made in any case, but
registered only if it is on. -/
theorem addConfigured_cons_eq_ok_iff {c : Config} {id : RuleId}
    {make : Option RuleSettings → Except RuleError Rule}
    {l : List (RuleId × (Option RuleSettings → Except RuleError Rule))} {g g' : Registry} :
    addConfigured c ((id, make) :: l) g = .ok g' ↔ ∃ r, make (c.settingsOf id.text) = .ok r ∧
      addConfigured c l (if c.isOn id.text then g.register r else g) = .ok g' := by
  simp only [addConfigured, Config.settingsOf, Config.isOn_eq]
  cases make ((c.rules.get? id.text).bind RuleEntry.settings?) with
  | error e => simp
  | ok r =>
    cases (c.rules.get? id.text).any fun e => !e.isEnabled <;> simp

/-- The recipients rule of a configuration. -/
def recipientsRule (c : Config) : Rule where
  check := .recipients c.allowedDomains
  severity := c.severityOf "email-address-validation"

/-- The collections rule of a configuration. -/
def collectionsRule (c : Config) : Rule where
  check := .collections c.mandatoryCollections
  severity := c.severityOf "must_include_collections"

/-- **The rules that a configuration leaves on**, in the order of their registration. -/
theorem rules_of_ofConfig {c : Config} {g : Registry} (h : ofConfig c = .ok g) :
    g.rules = (if c.isOn "email-address-validation" then [recipientsRule c] else []) ++
      if c.isOn "must_include_collections" then [collectionsRule c] else [] := by
  rw [ofConfig] at h
  split at h
  · cases h
  · rw [builtinRules, addConfigured_cons_eq_ok_iff] at h
    obtain ⟨r, hr, h⟩ := h
    rw [addConfigured_cons_eq_ok_iff] at h
    obtain ⟨r', hr', h⟩ := h
    obtain rfl : r = recipientsRule c := Rule.recipients_eq_ok hr
    obtain rfl : r' = collectionsRule c := Rule.collections_eq_ok hr'
    -- the ids differ, so the second rule does not take the place of the first
    have hid : (recipientsRule c).id ≠ (collectionsRule c).id := by
      show recipientsId ≠ collectionsId
      decide
    rw [addConfigured, Except.ok.injEq] at h
    subst h
    have hempty : (∅ : Registry).rules = [] := rfl
    cases hmail : c.isOn "email-address-validation" <;>
      cases hplay : c.isOn "must_include_collections" <;>
      simp [recipientsId, collectionsId, hmail, hplay, register, registerIn, hempty, hid]

end Registry

/-! ### Mandatory collections -/

namespace Text

theorem nodup_firstOccurrences (l : List String) : (firstOccurrences l).Nodup := by
  induction l with
  | nil => exact List.nodup_nil
  | cons s l ih =>
    rw [firstOccurrences, List.nodup_cons]
    refine ⟨?_, ih.filter _⟩
    intro h
    simpa using (List.mem_filter.mp h).2

end Text

/-- No collection is mandatory twice. -/
theorem Config.nodup_mandatoryCollections (c : Config) : c.mandatoryCollections.names.Nodup := by
  unfold mandatoryCollections
  split
  · next l _ =>
    simp only [MandatoryCollections.ofList]
    split
    · decide
    · exact Text.nodup_firstOccurrences _
  · decide

end PlaybookPolicy
