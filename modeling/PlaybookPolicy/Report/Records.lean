import PlaybookPolicy.Json.Printer
import PlaybookPolicy.Outcome

/-!
# An outcome as records

A JSON record on each line: the findings, the failures, and a status record at the end. A record
whose path is no text cannot be written and is left out.

## Main definitions

* `Finding.record?`, `LoadFailure.record?`, `Outcome.status` — the records.
* `Report.recordLines` — records, each on a line.
* `Outcome.recordText` — the whole report.
-/

namespace PlaybookPolicy

/-- Records, each on a line of its own. -/
def Report.recordLines (l : List Datum) : String :=
  String.join (l.map fun d => Json.write d ++ "\n")

/-- The record of a finding, if its path is text. -/
def Finding.record? (f : Finding) : Option Datum :=
  f.file.text?.map fun file =>
    .table [("type", .text "finding"), ("rule", .text f.rule.text),
      ("severity", .text f.severity.text), ("file", .text file), ("line", .ofNat? f.line),
      ("task", .ofText? f.task), ("message", .text f.message)]

/-- The record of a failure, if its path is text. -/
def LoadFailure.record? (f : LoadFailure) : Option Datum :=
  f.path.text?.map fun file =>
    .table [("type", .text "error"), ("file", .text file), ("message", .text f.error.message)]

namespace Outcome

/-- The record that counts. -/
def status (o : Outcome) : Datum :=
  .table [("type", .text "status"), ("passed", .bool o.passed),
    ("files_checked", .int o.filesChecked), ("rules_executed", .int o.rulesExecuted),
    ("findings", .int o.findings.length), ("errors", .int o.failures.length)]

/-- All records that can be written. -/
def records (o : Outcome) : List Datum :=
  o.findings.filterMap Finding.record? ++ o.failures.filterMap LoadFailure.record? ++ [o.status]

/-- The report as records. -/
def recordText (o : Outcome) : String :=
  Report.recordLines o.records

end Outcome

end PlaybookPolicy
