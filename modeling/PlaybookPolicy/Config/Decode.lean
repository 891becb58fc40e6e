import PlaybookPolicy.Config.Basic
import PlaybookPolicy.Datum
import PlaybookPolicy.FileKind
import PlaybookPolicy.RuleId

/-!
# The shape of a configuration

Plain data is read as a configuration. What is missing takes its default, unknown sections and
unknown keys of known sections are passed over, but rule settings are read strictly. A record may
also be written as a list of its fields.

## Main definitions

* `choice?` — one of several named choices.
* `RuleSettings.ofDatum?`, `RuleEntry.ofDatum?` — the settings of a rule, and what stands beside its
  id.
* `Config.ofDatum?` — a whole configuration.
-/

namespace PlaybookPolicy

/-! ### Parts -/

namespace Datum

/-- The text that a datum is. -/
def text? : Datum → Option String
  | .text s => some s
  | _ => none

/-- The texts of a list of nothing but texts. -/
def texts? : Datum → Option (List String)
  | .list l => l.mapM text?
  | _ => none

/-- The datum is null. -/
def isNull : Datum → Bool
  | .null => true
  | _ => false

/-- The datum is a table or a list without anything in it. -/
def isEmptyCollection : Datum → Bool
  | .list l => l.isEmpty
  | d => d.entries?.any List.isEmpty

/-- An optional value: null stands for none. -/
def optional? {α : Type} (read : Datum → Option α) (d : Datum) : Option (Option α) :=
  if d.isNull then some none else (read d).map some

end Datum

/-- One of several named choices: its name, or a table with the name as its only key. What stands
beside that key must say nothing. Of a scattered table the first key alone counts. -/
def choice? {α : Type} (ofName : String → Option α) (saysNothing : Datum → Bool) :
    Datum → Option α
  | .text name => ofName name
  | .table [(name, d)] => if saysNothing d then ofName name else none
  | .scattered ((name, d) :: _) => if saysNothing d then ofName name else none
  | _ => none

/-- A severity in plain data. -/
def Severity.ofDatum? : Datum → Option Severity :=
  choice? Severity.ofText? Datum.isNull

/-- A kind of file in plain data. -/
def FileKind.ofDatum? : Datum → Option FileKind :=
  choice? FileKind.ofText? Datum.isNull

/-! ### Rules -/

/-- The options of a rule. -/
inductive RuleOption where
  /-- The severity of findings. -/
  | severity
  /-- The domains that mail may go to. -/
  | allowedEmailDomains
  /-- The collections that plays must declare. -/
  | mandatoryCollections
  deriving DecidableEq, Repr

/-- The option with the given name or alias. -/
def RuleOption.ofKey? (key : String) : Option RuleOption :=
  if key == "severity" then some .severity
  else if key == "allowed_email_domains" || key == "allowed_domains" then
    some .allowedEmailDomains
  else if key == "mandatory_collections" || key == "mandatorycollections" then
    some .mandatoryCollections
  else none

namespace RuleSettings

/-- Sets an option from its datum. -/
def set? (s : RuleSettings) (option : RuleOption) (d : Datum) : Option RuleSettings :=
  match option with
  | .severity => (d.optional? Severity.ofDatum?).map fun severity => { s with severity }
  | .allowedEmailDomains =>
    (d.optional? Datum.texts?).map fun allowedEmailDomains => { s with allowedEmailDomains }
  | .mandatoryCollections =>
    (d.optional? Datum.texts?).map fun mandatoryCollections => { s with mandatoryCollections }

/-- Sets several options, one after the other. -/
def setAll? (s : RuleSettings) : List (RuleOption × Datum) → Option RuleSettings
  | [] => some s
  | (option, d) :: l => (s.set? option d).bind fun s => setAll? s l

/-- The option that an entry of a table sets. -/
def keyedOption? (e : String × Datum) : Option (RuleOption × Datum) :=
  (RuleOption.ofKey? e.1).map fun option => (option, e.2)

/-- The options that the entries of a table set. Every key must be an option, and no option may be
set twice. -/
def keyedOptions? (entries : List (String × Datum)) : Option (List (RuleOption × Datum)) :=
  (entries.mapM keyedOption?).filter fun options => decide (options.map Prod.fst).Nodup

/-- The settings in plain data: a table of options, or a list of up to three with the severity
first. -/
def ofDatum? : Datum → Option RuleSettings
  | .list (d :: l) =>
    if l.length ≤ 2 then
      setAll? {}
        ([RuleOption.severity, .allowedEmailDomains, .mandatoryCollections].zip (d :: l))
    else none
  | d => (d.entries?.bind keyedOptions?).bind fun options => setAll? {} options

end RuleSettings

/-- What stands beside a rule's id: a truth value or settings. -/
def RuleEntry.ofDatum? : Datum → Option RuleEntry
  | .bool on => some (.enabled on)
  | d => (RuleSettings.ofDatum? d).map .settings

/-- An entry of the rules table. Its key must be a rule id. -/
def ruleEntry? (e : String × Datum) : Option (String × RuleEntry) :=
  (RuleId.ofText? e.1).bind fun id => (RuleEntry.ofDatum? e.2).map fun entry => (id.text, entry)

/-- The entries of the rules table. -/
def ruleEntries? (d : Datum) : Option (TextMap RuleEntry) :=
  (d.entries?.bind fun entries => entries.mapM ruleEntry?).map TextMap.ofList

/-! ### Sections -/

/-- The value of a field of a section: its default if the field is missing. -/
def fieldOr {α : Type} (default : α) (read : Datum → Option α) : Option Datum → Option α
  | none => some default
  | some d => read d

/-- A field of a section, which is a table or a list of fields in order. -/
def sectionField? (d : Datum) (key : String) (place : Nat) : Option Datum :=
  match d with
  | .list l => l[place]?
  | d => d.get? key

/-- The datum is a table or a list. -/
def isSection : Datum → Bool
  | .list _ => true
  | d => d.entries?.isSome

namespace Config

/-- Reads the section on files. -/
def setFiles? (c : Config) (d : Datum) : Option Config :=
  if isSection d then do
    let version ← fieldOr c.version Datum.text? (sectionField? d "version" 0)
    let includes ← fieldOr c.includes Datum.texts? (sectionField? d "include" 1)
    let excludes ← fieldOr c.excludes Datum.texts? (sectionField? d "exclude" 2)
    return { c with version, includes, excludes }
  else none

/-- Reads the section on rules. -/
def setRules? (c : Config) (d : Datum) : Option Config :=
  (ruleEntries? d).map fun rules => { c with rules }

/-- Reads the section on output. -/
def setOutput? (c : Config) (d : Datum) : Option Config :=
  if isSection d then do
    let format ← fieldOr c.format (choice? OutputFormat.ofText? Datum.isEmptyCollection)
      (sectionField? d "format" 0)
    let color ← fieldOr c.color (choice? ColorChoice.ofText? Datum.isEmptyCollection)
      (sectionField? d "color" 1)
    return { c with format, color }
  else none

/-- The configuration in plain data. -/
def ofDatum? (d : Datum) : Option Config := do
  let c ← fieldOr {} (setFiles? {}) (d.get? "playlint")
  let c ← fieldOr c c.setRules? (d.get? "rules")
  fieldOr c c.setOutput? (d.get? "output")

end Config

end PlaybookPolicy
