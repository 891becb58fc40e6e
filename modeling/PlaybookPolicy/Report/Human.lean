import PlaybookPolicy.Outcome
import PlaybookPolicy.Report.Colored

/-!
# An outcome for people

A line for each finding, a line for each failure, an empty line behind them, a summary and a
verdict.

## Main definitions

* `Finding.pieces`, `LoadFailure.pieces` — the line of a finding and of a failure.
* `Outcome.pieces` — the whole report.
* `Outcome.humanText` — the report with or without colours.
-/

namespace PlaybookPolicy

open Report (Color Style Piece)

/-- The colour of a severity. -/
def Severity.color : Severity → Color
  | veryHigh => .red
  | high => .red
  | medium => .yellow
  | low => .cyan
  | veryLow => .cyan
  | info => .blue

/-- The place of a finding: its file, and its line if it has one. -/
def Finding.place (f : Finding) : String :=
  match f.line with
  | some line => f.file.display ++ ":" ++ toString line
  | none => f.file.display

/-- The line of a finding. -/
def Finding.pieces (f : Finding) : List Piece :=
  let task := match f.task with
    | some name => " (task: " ++ name ++ ")"
    | none => ""
  [.ofText (f.place ++ ": "),
    { style := some ⟨f.severity.color, false⟩, text := "[" ++ f.severity.text ++ "]" },
    .ofText (" " ++ f.rule.text ++ ": " ++ f.message ++ task ++ "\n")]

/-- The line of a failure. -/
def LoadFailure.pieces (f : LoadFailure) : List Piece :=
  [{ style := some ⟨.red, true⟩, text := "error" },
    .ofText (": " ++ f.path.display ++ ": " ++ f.error.message ++ "\n")]

namespace Outcome

/-- The line that counts. -/
def summary (o : Outcome) : String :=
  "Checked " ++ toString o.filesChecked ++ " file(s) with " ++ toString o.rulesExecuted ++
    " rule(s): " ++ toString o.findings.length ++ " finding(s), " ++
    toString o.failures.length ++ " error(s)\n"

/-- The last line. -/
def verdict (o : Outcome) : Piece :=
  if o.passed then { style := some ⟨.green, true⟩, text := "Check PASSED\n" }
  else { style := some ⟨.red, true⟩, text := "Check FAILED\n" }

/-- The report for people. -/
def pieces (o : Outcome) : List Piece :=
  o.findings.flatMap Finding.pieces ++ o.failures.flatMap LoadFailure.pieces ++
    (if o.passed then [] else [.ofText "\n"]) ++ [.ofText o.summary, o.verdict]

/-- The report for people, with or without colours. -/
def humanText (colored : Bool) (o : Outcome) : String :=
  if colored then Report.coloredText o.pieces else Report.plainText o.pieces

end Outcome

end PlaybookPolicy
