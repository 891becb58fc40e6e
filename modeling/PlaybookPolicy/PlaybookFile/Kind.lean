import PlaybookPolicy.FileKind
import PlaybookPolicy.Path
import PlaybookPolicy.Yaml.Value

/-!
# Telling the kind of a file

A document that is a sequence with a play in it is a playbook; another sequence of mappings is a
list of tasks or of handlers, unless its path says that it holds variables or requirements.

## Main definitions

* `isImport` — a play that only imports another playbook.
* `FileKind.ofDocument` — the kind of a file by its path and document.
-/

namespace PlaybookPolicy

open Yaml (Value Mapping)

/-- The play only imports another playbook. -/
def isImport (m : Mapping) : Bool :=
  Mapping.hasKey m "import_playbook" || Mapping.hasKey m "ansible.builtin.import_playbook"

/-- The directories whose files are never task lists. -/
def nonTaskDirectories : List String :=
  ["vars", "defaults", "meta", "group_vars", "host_vars"]

/-- The names of files that are never task lists. -/
def nonTaskFiles : List String :=
  ["requirements.yml", "requirements.yaml", "galaxy.yml", "galaxy.yaml"]

namespace FileKind

/-- The kind of a sequence of mappings without plays, by its path. -/
def ofTaskPath (path : Path) : FileKind :=
  let name := (path.fileName?.bind Text.Utf8.decode?).getD ""
  let directories := path.parentNames
  if nonTaskFiles.contains name then .other
  else if directories.any nonTaskDirectories.contains then .other
  else if directories.contains "handlers" then .handlers
  else .tasks

/-- The kind of a file. -/
def ofDocument (path : Path) : Value → FileKind
  | .sequence items =>
    let mappings := items.filterMap Value.asMapping?
    if mappings.isEmpty then .other
    else if mappings.any fun m => Mapping.hasKey m "hosts" || isImport m then .playbook
    else ofTaskPath path
  | _ => .other

end FileKind

end PlaybookPolicy
