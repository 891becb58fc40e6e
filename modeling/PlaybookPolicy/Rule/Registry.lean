import PlaybookPolicy.Rule.Basic

/-!
# The rule registry

The rules that run, in the order of their registration. A registry looks at nothing but the ids of
its rules, so it keeps rules of any kind: what runs are rules that check tasks and plays, but
whatever has an id can be registered.

## Main definitions

* `Identified` — kinds of rules, each rule with an id.
* `Registry` — the rules.
* `Registry.register`, `Registry.get?` — adding and finding a rule.
* `builtinRules` — the id and the maker of every built-in rule.
* `Registry.ofConfig` — the rules that a configuration leaves on.
-/

namespace PlaybookPolicy

/-- A kind of rules that are told apart by their ids. -/
class Identified (ρ : Type) where
  /-- The id of a rule. -/
  ruleId : ρ → RuleId

open Identified (ruleId)

instance : Identified Rule :=
  ⟨Rule.id⟩

@[simp] theorem ruleId_eq_id (r : Rule) : ruleId r = r.id := rfl

/-- The rules that run. -/
structure Registry (ρ : Type := Rule) where
  /-- The rules, in the order of registration. -/
  rules : List ρ
  deriving DecidableEq

/-- Every built-in rule, in the order of registration: its id, and how it is made from settings. -/
def builtinRules : List (RuleId × (Option RuleSettings → Except RuleError Rule)) :=
  [(recipientsId, Rule.recipients), (collectionsId, Rule.collections)]

/-- The ids of the built-in rules. -/
def builtinIds : List RuleId :=
  builtinRules.map Prod.fst

namespace Registry

section AnyKind

variable {ρ : Type}

instance : EmptyCollection (Registry ρ) :=
  ⟨⟨[]⟩⟩

instance : Inhabited (Registry ρ) :=
  ⟨∅⟩

/-- The number of rules. -/
def size (g : Registry ρ) : Nat :=
  g.rules.length

/-- There is no rule. -/
def isEmpty (g : Registry ρ) : Bool :=
  g.rules.isEmpty

variable [Identified ρ]

/-- Puts a rule in the place of the first one with its id, or behind all others. -/
def registerIn (r : ρ) : List ρ → List ρ
  | [] => [r]
  | q :: l => if ruleId q = ruleId r then r :: l else q :: registerIn r l

/-- Adds a rule. A rule with the same id is replaced where it stands. -/
def register (g : Registry ρ) (r : ρ) : Registry ρ :=
  ⟨registerIn r g.rules⟩

/-- The rule with the given id. -/
def get? (g : Registry ρ) (id : RuleId) : Option ρ :=
  g.rules.find? fun r => ruleId r = id

/-- The ids of the rules, in order. -/
def ids (g : Registry ρ) : List RuleId :=
  g.rules.map ruleId

/-- A line that names the registry and the ids in it. -/
def label (g : Registry ρ) : String :=
  "RuleRegistry \x7b rules: [" ++
    Text.joined ", " (g.ids.map fun id => "\"" ++ id.text ++ "\"") ++ "] \x7d"

end AnyKind

/-- All built-in rules with their own options. -/
def builtin : Registry :=
  ⟨builtinRules.filterMap fun (_, make) => (make none).toOption⟩

/-- The first configured id, in ascending order, that no built-in rule has. -/
def unknownId? (c : Config) : Option String :=
  c.rules.keys.find? fun k => !builtinIds.any fun id => id.text == k

/-- Registers the built-in rules that the configuration does not switch off. Their options are
checked even then. -/
def addConfigured (c : Config) :
    List (RuleId × (Option RuleSettings → Except RuleError Rule)) → Registry →
      Except RuleError Registry
  | [], g => .ok g
  | (id, make) :: l, g =>
    let entry := c.rules.get? id.text
    match make (entry.bind RuleEntry.settings?) with
    | .error e => .error e
    | .ok r =>
      addConfigured c l (if entry.any fun e => !e.isEnabled then g else g.register r)

/-- The rules that a configuration leaves on. It fails if the configuration names a rule that does
not exist, or gives a rule an option that it does not have. -/
def ofConfig (c : Config) : Except RuleError Registry :=
  match unknownId? c with
  | some id => .error (.notFound id)
  | none => addConfigured c builtinRules ∅

end Registry

end PlaybookPolicy
