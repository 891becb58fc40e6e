import PlaybookPolicy.Play
import PlaybookPolicy.PlaybookFile.Kind
import PlaybookPolicy.PlaybookFile.TaskList
import PlaybookPolicy.Yaml.Reader

/-!
# Playbook files

A YAML file ready for linting: its kind, its plays and all its tasks.

## Main definitions

* `PlaybookFile` — a loaded file.
* `PlaybookFile.ofDocument` — the plays and tasks of a document.
* `PlaybookFile.parse` — the file with a given text.
-/

namespace PlaybookPolicy

open Yaml (Value Mapping)

/-- A loaded YAML file. -/
structure PlaybookFile where
  /-- The path of the file. -/
  path : Path
  /-- What the file holds. -/
  kind : FileKind
  /-- The plays of a playbook, in document order. -/
  plays : List Play
  /-- The tasks, in document order. -/
  tasks : List Task

/-- The sections of a play that hold tasks, in the order of execution. -/
def playSections : List String :=
  ["pre_tasks", "tasks", "post_tasks", "handlers"]

/-- The tasks of the sections of a play, each looked for below line `start`, and the last line found
in any of them, if it is below `cursor`. -/
def collectSections (names : NameLines) (start : Nat) (m : Mapping) :
    Nat → List String → List Task × Nat
  | cursor, [] => ([], cursor)
  | cursor, key :: keys =>
    let (tasks, last) := collectTasks names start (sectionItems m key)
    let (more, cursor) := collectSections names start m (max cursor last) keys
    (tasks ++ more, cursor)

/-- The plays and tasks of a list of play mappings. Each play is looked for below the last line
found before it, and stands at the first line if it is not found. -/
def collectPlays (names : NameLines) (path : Path) :
    Nat → List Mapping → Except LoadError (List Play × List Task)
  | _, [] => .ok ([], [])
  | cursor, m :: l =>
    match Play.ofMapping .playbook path m with
    | .error e => .error e
    | .ok play =>
      let line := names.locateName? play.name cursor
      let start := line.getD cursor
      let (tasks, cursor) := collectSections names start m start playSections
      (collectPlays names path cursor l).map fun (plays, more) =>
        ({ play with line := some (line.getD 1) } :: plays, tasks ++ more)

namespace PlaybookFile

/-- The mappings among the items that are plays of their own. -/
def playMappings (items : List Value) : List Mapping :=
  (items.filterMap Value.asMapping?).filter fun m => !isImport m

/-- The file with the given document. The names that its lines declare locate plays and tasks. -/
def ofDocument (path : Path) (names : NameLines) (document : Value) :
    Except LoadError PlaybookFile :=
  let kind := FileKind.ofDocument path document
  match kind, document with
  | .playbook, .sequence items =>
    (collectPlays names path 0 (playMappings items)).map fun (plays, tasks) =>
      { path, kind, plays, tasks }
  | .tasks, .sequence items
  | .handlers, .sequence items =>
    .ok { path, kind, plays := [], tasks := (collectTasks names 0 items).1 }
  | _, _ => .ok { path, kind, plays := [], tasks := [] }

/-- The document that a text writes. A text of blanks is the null document. -/
def readDocument (path : Path) (content : String) : Except LoadError Value :=
  if Text.isBlankText content then .ok .null
  else match Yaml.read? content with
    | some v => .ok v
    | none => .error (.invalidYaml path)

/-- The file with the given text. -/
def parse (path : Path) (content : String) : Except LoadError PlaybookFile :=
  match readDocument path content with
  | .error e => .error e
  | .ok document => ofDocument path (NameLines.of content) document

end PlaybookFile

end PlaybookPolicy
