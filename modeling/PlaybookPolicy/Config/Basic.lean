import PlaybookPolicy.Severity
import PlaybookPolicy.TextMap

/-!
# Configurations

What a configuration says: which files to lint, which rules run with which settings, and how the
outcome is shown.

## Main definitions

* `RuleSettings` — the options of one rule.
* `RuleEntry` — what a configuration says about a rule: on, off, or settings.
* `OutputFormat`, `ColorChoice` — the choices for output.
* `Config` — a whole configuration, with its defaults.
-/

namespace PlaybookPolicy

/-- The options of a rule. -/
structure RuleSettings where
  /-- The severity of its findings, if it differs from the built-in one. -/
  severity : Option Severity := none
  /-- The domains that mail may go to. -/
  allowedEmailDomains : Option (List String) := none
  /-- The collections that every play must declare. -/
  mandatoryCollections : Option (List String) := none
  deriving DecidableEq, Repr, Inhabited

/-- What a configuration says about a rule. -/
inductive RuleEntry where
  /-- The rule is on or off. -/
  | enabled (on : Bool)
  /-- The rule is on, with settings. -/
  | settings (s : RuleSettings)
  deriving DecidableEq, Repr, Inhabited

namespace RuleEntry

/-- The rule runs. Settings imply that it does. -/
def isEnabled : RuleEntry → Bool
  | enabled on => on
  | settings _ => true

/-- The settings, if there are any. -/
def settings? : RuleEntry → Option RuleSettings
  | enabled _ => none
  | settings s => some s

end RuleEntry

/-- The forms of output. -/
inductive OutputFormat where
  /-- Lines for people. -/
  | human
  /-- A JSON record on each line. -/
  | jsonl
  deriving DecidableEq, Repr, Inhabited

/-- When output is coloured. -/
inductive ColorChoice where
  /-- On a terminal. -/
  | auto
  /-- Always. -/
  | always
  /-- Never. -/
  | never
  deriving DecidableEq, Repr, Inhabited

namespace OutputFormat

/-- The spelling of a format. -/
def text : OutputFormat → String
  | human => "human"
  | jsonl => "jsonl"

/-- The format with the given spelling. -/
def ofText? (s : String) : Option OutputFormat :=
  [human, jsonl].find? (·.text == s)

end OutputFormat

namespace ColorChoice

/-- The spelling of a choice. -/
def text : ColorChoice → String
  | auto => "auto"
  | always => "always"
  | never => "never"

/-- The choice with the given spelling. -/
def ofText? (s : String) : Option ColorChoice :=
  [auto, always, never].find? (·.text == s)

end ColorChoice

/-- A configuration. -/
structure Config where
  /-- The version of the format; only `1` is accepted. -/
  version : String := "1"
  /-- The patterns of files to lint. -/
  includes : List String := ["**/*.yml", "**/*.yaml"]
  /-- The patterns of files to leave out. -/
  excludes : List String := []
  /-- What is said about each rule, by the text of its id. -/
  rules : TextMap RuleEntry := ∅
  /-- The form of output. -/
  format : OutputFormat := .human
  /-- When output is coloured. -/
  color : ColorChoice := .auto
  deriving Inhabited

/-- The name of the configuration file in a project. -/
def configFileName : String := "playlint.toml"

end PlaybookPolicy
