import PlaybookPolicy.PlaybookFile.Basic
import PlaybookPolicy.Rule.Registry

/-!
# The findings of one file

## Main definitions

* `PlaybookFile.findings` — what the rules of a registry find in a file.
-/

namespace PlaybookPolicy

namespace PlaybookFile

/-- What the rules find in the plays of a file, play by play and rule by rule. -/
def playFindings (rules : List Rule) (f : PlaybookFile) : List Finding :=
  f.plays.flatMap fun p => rules.flatMap fun r => r.playFindings p

/-- What the rules find in the tasks of a file, task by task and rule by rule. -/
def taskFindings (rules : List Rule) (f : PlaybookFile) : List Finding :=
  f.tasks.flatMap fun t => rules.flatMap fun r => r.taskFindings f.path t

/-- What the rules of a registry find in a file: first in its plays, then in its tasks. -/
def findings (f : PlaybookFile) (g : Registry) : List Finding :=
  f.playFindings g.rules ++ f.taskFindings g.rules

end PlaybookFile

end PlaybookPolicy
