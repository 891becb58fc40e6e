/-!
# File kinds

What a YAML file holds, as far as linting is concerned.

## Main definitions

* `FileKind` — playbooks, task lists, handler lists and everything else.
* `FileKind.text`, `FileKind.ofText?` — the spelling of a kind.
-/

namespace PlaybookPolicy

/-- What a YAML file holds. -/
inductive FileKind where
  /-- A list of plays. -/
  | playbook
  /-- A list of tasks. -/
  | tasks
  /-- A list of handlers. -/
  | handlers
  /-- Any other document. -/
  | other
  deriving DecidableEq, Repr, Inhabited

namespace FileKind

/-- All kinds. -/
def all : List FileKind :=
  [playbook, tasks, handlers, other]

/-- The spelling of a kind. -/
def text : FileKind → String
  | playbook => "playbook"
  | tasks => "tasks"
  | handlers => "handlers"
  | other => "other"

/-- The kind with the given spelling. -/
def ofText? (s : String) : Option FileKind :=
  all.find? (·.text == s)

theorem ofText?_text (k : FileKind) : ofText? k.text = some k := by
  cases k <;> decide

end FileKind

end PlaybookPolicy
