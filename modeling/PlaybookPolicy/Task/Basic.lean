import PlaybookPolicy.Failure
import PlaybookPolicy.Task.FreeForm

/-!
# Tasks

A task is a module with arguments. It can be written in several forms: with the module's name as a
key, or as the value of `action` or `local_action`; and with its arguments as a mapping or on one
line. All forms reduce to the same record.

## Main definitions

* `Task` — a module, its arguments, a name and a line.
* `isTaskKeyword` — the keys that never name a module.
* `Action.ofValue?` — the module and arguments of an `action` value.
* `Task.ofMapping` — the task that a mapping writes.
-/

namespace PlaybookPolicy

open Yaml (Value Mapping)

/-- The arguments of a module. -/
abbrev Arguments := TextMap Value

/-- A task, reduced to what rules inspect. -/
@[ext] structure Task where
  /-- The module, as it is written. -/
  moduleName : String
  /-- The arguments of the module. -/
  args : Arguments := ∅
  /-- The name of the task. -/
  name : Option String := none
  /-- The line that declares the name, counted from one. -/
  line : Option Nat := none
  deriving Inhabited

/-- The keywords of tasks and blocks. -/
def taskKeywords : List String :=
  ["name", "action", "local_action", "args", "any_errors_fatal", "async", "become", "become_exe",
    "become_flags", "become_method", "become_user", "changed_when", "check_mode", "collections",
    "connection", "debugger", "delay", "delegate_facts", "delegate_to", "diff", "environment",
    "failed_when", "ignore_errors", "ignore_unreachable", "listen", "loop", "loop_control",
    "module_defaults", "no_log", "notify", "poll", "port", "register", "remote_user", "retries",
    "run_once", "tags", "throttle", "timeout", "until", "vars", "when", "block", "rescue", "always"]

/-- The key never names a module: it is a keyword or begins a loop. -/
def isTaskKeyword (key : String) : Bool :=
  taskKeywords.contains key || "with_".toList.isPrefixOf key.toList

namespace Arguments

/-- The entries of a mapping whose keys read as texts. -/
def textEntries (m : Mapping) : List (String × Value) :=
  m.filterMap fun (k, v) => k.asText?.map fun k => (k, v)

/-- Writes the entries of a mapping over the arguments. -/
def insertMapping (args : Arguments) (m : Mapping) : Arguments :=
  args.insertAll (textEntries m)

/-- Writes arguments over others. -/
def union (args inline : Arguments) : Arguments :=
  args.insertAll inline.entries

end Arguments

/-- A module with its arguments, as an `action` value gives them. -/
structure Action where
  /-- The module. -/
  moduleName : String
  /-- The arguments beside it. -/
  args : Arguments

/-- The module and the arguments of an `action` value: a text that begins with the module, or a
mapping with a `module` entry. -/
def Action.ofValue? : Value → Option Action
  | .text s =>
    let l := Text.trim s.toList
    let name := l.takeWhile fun c => !Text.isBlank c
    if name.isEmpty then none
    else some ⟨String.ofList name, FreeForm.parse (String.ofList ((l.drop name.length).drop 1))⟩
  | .mapping m =>
    match (Mapping.get? m "module").bind Value.asText? with
    | none => none
    | some name =>
      some ⟨name, TextMap.erase (Arguments.insertMapping ∅ m) "module"⟩
  | _ => none

namespace Task

/-- The name entry of a task, if it reads as a text. -/
def nameOf (m : Mapping) : Option String :=
  (Mapping.get? m "name").bind Value.asText?

/-- The arguments of an explicit `args` mapping. -/
def explicitArgs (m : Mapping) : Arguments :=
  match Mapping.get? m "args" with
  | some (.mapping explicit) => Arguments.insertMapping ∅ explicit
  | _ => ∅

/-- The value of `action`, or else of `local_action`. -/
def actionValue? (m : Mapping) : Option Value :=
  match Mapping.get? m "action" with
  | some v => some v
  | none => Mapping.get? m "local_action"

/-- The first entry whose key reads as a text and is no keyword. -/
def moduleEntry? (m : Mapping) : Option (String × Value) :=
  m.findSome? fun (k, v) =>
    match k.asText? with
    | some key => if isTaskKeyword key then none else some (key, v)
    | none => none

/-- The arguments that the value of a module key gives. -/
def inlineArgs (args : Arguments) : Value → Arguments
  | .mapping inline => Arguments.insertMapping args inline
  | .text freeForm => Arguments.union args (FreeForm.parse freeForm)
  | .null => args
  | v => args.insert FreeForm.rawKey v

/-- The task that a mapping writes. It fails for a mapping that names no module. -/
def ofMapping (m : Mapping) : Except LoadError Task :=
  let name := nameOf m
  match actionValue? m with
  | some v =>
    match Action.ofValue? v with
    | some action =>
      .ok { moduleName := action.moduleName
            args := Arguments.union (explicitArgs m) action.args
            name }
    | none => .error (.missingModule name)
  | none =>
    match moduleEntry? m with
    | some (moduleName, v) => .ok { moduleName, args := inlineArgs (explicitArgs m) v, name }
    | none => .error (.missingModule name)

/-- The argument under a key. -/
def arg? (t : Task) (key : String) : Option Value :=
  t.args.get? key

/-- The task with one argument more, or with another value for it. -/
def withArg (t : Task) (key : String) (v : Value) : Task :=
  { t with args := t.args.insert key v }

end Task

end PlaybookPolicy
