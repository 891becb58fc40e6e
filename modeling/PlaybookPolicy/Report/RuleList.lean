import PlaybookPolicy.Report.Records
import PlaybookPolicy.Rule.Registry

/-!
# The list of rules

## Main definitions

* `RuleSummary` — what the list says about a rule.
* `RuleSummary.listText` — the list for people.
* `RuleSummary.recordText` — the list as records.
-/

namespace PlaybookPolicy

/-- What the list says about a rule. -/
structure RuleSummary where
  /-- The id of the rule. -/
  id : String
  /-- Its title. -/
  title : String
  /-- What it is for. -/
  description : String
  /-- The severity of its findings. -/
  severity : String
  /-- The tags that group it. -/
  tags : List String
  /-- The version that introduced it. -/
  versionAdded : String
  /-- Its resolved options, by name. -/
  options : List (String × List String)
  deriving DecidableEq, Repr

/-- What the list says about a rule. -/
def Rule.summary (r : Rule) : RuleSummary :=
  { id := r.id.text
    title := r.title
    description := r.description
    severity := r.severity.text
    tags := r.tags
    versionAdded := r.versionAdded
    options := r.options }

namespace RuleSummary

/-- The line of an option. -/
def optionLine (option : String × List String) : String :=
  "  " ++ option.1 ++ ": " ++ Text.joined ", " option.2 ++ "\n"

/-- The lines of a rule, with an empty line behind them. -/
def lines (s : RuleSummary) : String :=
  s.id ++ " - " ++ s.title ++ "\n  Description: " ++ s.description ++ "\n  Severity: " ++
    s.severity ++ "\n  Tags: " ++ Text.joined ", " s.tags ++ "\n" ++
    String.join (s.options.map optionLine) ++ "\n"

/-- The list for people. -/
def listText (l : List RuleSummary) : String :=
  "Rules (" ++ toString l.length ++ " enabled):\n\n" ++ String.join (l.map lines)

/-- The record of a rule. -/
def record (s : RuleSummary) : Datum :=
  .table [("rule_id", .text s.id), ("shortdesc", .text s.title),
    ("description", .text s.description), ("severity", .text s.severity), ("tags", .texts s.tags),
    ("version_added", .text s.versionAdded),
    ("options", .list (s.options.map fun (name, values) =>
      .table [("name", .text name), ("values", .texts values)]))]

/-- The list as records. -/
def recordText (l : List RuleSummary) : String :=
  Report.recordLines (l.map record)

end RuleSummary

end PlaybookPolicy
