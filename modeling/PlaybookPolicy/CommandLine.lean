import PlaybookPolicy.Config.Basic

/-!
# The command line

A command line names a command, with options before and behind it. An option that takes a value is
settled only when the next option or operand comes, so a fault of its value is reported no earlier;
with the value attached to it, it is settled at once.

## Main definitions

* `Command`, `Invocation` — what a command line asks for.
* `UsageError` — why a command line is rejected.
* `Argument` — the forms of an argument.
* `Level` — the options and operands that are understood before or behind a command.
* `Invocation.ofArguments` — reads a command line.
-/

namespace PlaybookPolicy

/-! ### Commands -/

/-- What a check is asked to do. -/
structure CheckOptions where
  /-- The roots to look for files. -/
  paths : List String := ["."]
  /-- The form of output, if it is not left to the configuration. -/
  format : Option OutputFormat := none
  /-- The configuration file, if it is not the usual one. -/
  config : Option String := none
  /-- Tell more on the way. -/
  verbose : Bool := false
  deriving DecidableEq, Repr

/-- What listing the rules is asked to do. -/
structure ListOptions where
  /-- The form of output, if it is not left to the configuration. -/
  format : Option OutputFormat := none
  /-- The configuration file, if it is not the usual one. -/
  config : Option String := none
  deriving DecidableEq, Repr

/-- A command. -/
inductive Command where
  /-- Look for violations. -/
  | check (options : CheckOptions)
  /-- List the rules. -/
  | list (options : ListOptions)
  /-- Write a configuration file, over an existing one if `force` is set. -/
  | init (force : Bool)
  deriving DecidableEq, Repr

/-- What a command line asks for. -/
structure Invocation where
  /-- The command. -/
  command : Command
  /-- When output is coloured, if it is not left to the configuration. -/
  color : Option ColorChoice
  deriving DecidableEq, Repr

/-- The command asks for more output on the way. -/
def Command.isVerbose : Command → Bool
  | check options => options.verbose
  | _ => false

/-- Why a command line is rejected. -/
inductive UsageError where
  /-- A value is missing or not one of those possible. -/
  | invalidValue
  /-- Nothing is known by that name, or an operand has no place. -/
  | unknownArgument
  /-- There is no such command. -/
  | invalidCommand
  /-- An option is given twice. -/
  | repeatedOption
  /-- A value is given to an option that takes none. -/
  | unexpectedValue
  /-- There are options, but no command. -/
  | missingCommand
  /-- There is nothing at all. -/
  | nothingGiven
  /-- Help is asked for. -/
  | help
  /-- The version is asked for. -/
  | version
  deriving DecidableEq, Repr

/-! ### Arguments -/

/-- The forms of an argument. -/
inductive Argument where
  /-- Two dashes; only operands follow. -/
  | separator
  /-- An option by its long name, with the value attached to it. -/
  | long (name : String) (value : Option String)
  /-- Options by their letters. -/
  | letters (l : List Char)
  /-- Anything else. -/
  | word (s : String)
  deriving DecidableEq, Repr

/-- The form of an argument. A lone dash is a word. -/
def Argument.ofText (s : String) : Argument :=
  match s.toList with
  | ['-', '-'] => .separator
  | '-' :: '-' :: l =>
    match l.span (· != '=') with
    | (name, _ :: value) => .long (String.ofList name) (some (String.ofList value))
    | (name, []) => .long (String.ofList name) none
  | '-' :: c :: l => .letters (c :: l)
  | _ => .word s

/-- The options. -/
inductive OptionName where
  /-- `--color` -/
  | color
  /-- `--format` -/
  | format
  /-- `--config` -/
  | config
  /-- `--verbose` -/
  | verbose
  /-- `--force` -/
  | force
  /-- `--help` -/
  | help
  /-- `--version` -/
  | version
  deriving DecidableEq, Repr

namespace OptionName

/-- The long name of an option. -/
def text : OptionName → String
  | color => "color"
  | format => "format"
  | config => "config"
  | verbose => "verbose"
  | force => "force"
  | help => "help"
  | version => "version"

/-- The letter of an option. -/
def letter? : OptionName → Option Char
  | format => some 'f'
  | config => some 'c'
  | verbose => some 'v'
  | help => some 'h'
  | version => some 'V'
  | _ => none

/-- The option takes a value. -/
def takesValue : OptionName → Bool
  | color => true
  | format => true
  | config => true
  | _ => false

/-- The value is possible for the option. -/
def accepts (o : OptionName) (value : String) : Bool :=
  match o with
  | color => (ColorChoice.ofText? value).isSome
  | format => (OutputFormat.ofText? value).isSome
  | _ => true

end OptionName

/-! ### One level of a command line -/

/-- The names of the commands. -/
inductive CommandName where
  /-- Look for violations. -/
  | check
  /-- List the rules. -/
  | list
  /-- Write a configuration file. -/
  | init
  /-- Show help. -/
  | help
  deriving DecidableEq, Repr

namespace CommandName

/-- The name of a command. -/
def text : CommandName → String
  | check => "check"
  | list => "list"
  | init => "init"
  | help => "help"

/-- The command with the given name. -/
def ofText? (s : String) : Option CommandName :=
  [check, list, init, help].find? (·.text == s)

end CommandName

/-- What is understood before or behind a command. -/
inductive Level where
  /-- Before the command. -/
  | top
  /-- Behind a command. -/
  | behind (command : CommandName)
  deriving DecidableEq, Repr

namespace Level

/-- The options of a level. -/
def options : Level → List OptionName
  | top => [.color, .help, .version]
  | behind .check => [.color, .help, .format, .config, .verbose]
  | behind .list => [.color, .help, .format, .config]
  | behind .init => [.color, .help, .force]
  | behind .help => []

/-- The option with a long name. -/
def long? (v : Level) (name : String) : Option OptionName :=
  v.options.find? (·.text == name)

/-- The option with a letter. -/
def letter? (v : Level) (c : Char) : Option OptionName :=
  v.options.find? (·.letter? == some c)

end Level

/-- What was read at a level. -/
structure LevelState where
  /-- The settled options with their values; an option without a value has an empty one. -/
  settled : List (OptionName × String) := []
  /-- The option to settle next, with its value if that has come. -/
  pending : Option (OptionName × Option String) := none
  /-- The operands. -/
  operands : List String := []
  deriving DecidableEq, Repr

namespace LevelState

/-- The value of a settled option. -/
def value? (st : LevelState) (o : OptionName) : Option String :=
  st.settled.lookup o

/-- An option awaits its value. -/
def awaitsValue (st : LevelState) : Bool :=
  match st.pending with
  | some (_, none) => true
  | _ => false

/-- Settles an option that no other one is pending before. -/
def record (st : LevelState) (o : OptionName) (value : String) : Except UsageError LevelState :=
  if (st.value? o).isSome then .error .repeatedOption
  else if o.accepts value then .ok { st with settled := (o, value) :: st.settled }
  else .error .invalidValue

/-- Settles the pending option. -/
def settle (st : LevelState) : Except UsageError LevelState :=
  match st.pending with
  | none => .ok st
  | some (_, none) => .error .invalidValue
  | some (o, some value) => { st with pending := none }.record o value

/-- An option with its value attached. -/
def assign (st : LevelState) (o : OptionName) (value : String) : Except UsageError LevelState := do
  (← st.settle).record o value

/-- An option whose value is to come. -/
def await (st : LevelState) (o : OptionName) : Except UsageError LevelState := do
  return { ← st.settle with pending := some (o, none) }

/-- An option without a value. -/
def raise (st : LevelState) (o : OptionName) : Except UsageError LevelState := do
  let st ← st.settle
  match o with
  | .help => .error .help
  | .version => .error .version
  | o => st.record o ""

/-- The value that a pending option awaits. -/
def fill (st : LevelState) (value : String) : LevelState :=
  { st with pending := st.pending.map fun (o, _) => (o, some value) }

/-- An option by its long name. -/
def readLong (v : Level) (st : LevelState) (name : String) (value : Option String) :
    Except UsageError LevelState :=
  match v.long? name with
  | none => .error .unknownArgument
  | some o =>
    match o.takesValue, value with
    | true, some value => st.assign o value
    | true, none => st.await o
    | false, some _ => .error .unexpectedValue
    | false, none => st.raise o

/-- Options by their letters. What follows the letter of an option with a value is the value; an
equals sign may stand between. -/
def readLetters (v : Level) (st : LevelState) : List Char → Except UsageError LevelState
  | [] => .ok st
  | c :: l =>
    match v.letter? c with
    | none => .error .unknownArgument
    | some o =>
      if o.takesValue then
        match l with
        | [] => st.await o
        | '=' :: value => st.assign o (String.ofList value)
        | value => st.assign o (String.ofList value)
      else
        match st.raise o with
        | .ok st => readLetters v st l
        | .error e => .error e

/-- An operand. Only a check has operands; what stands before a command can only be a command, but
not behind the separator. -/
def readOperand (v : Level) (separated : Bool) (st : LevelState) (s : String) :
    Except UsageError LevelState :=
  match v with
  | .top =>
    if separated && (CommandName.ofText? s).isSome then .error .unknownArgument
    else .error .invalidCommand
  | .behind .check => st.settle.map fun st => { st with operands := st.operands ++ [s] }
  | _ => .error .unknownArgument

/-- Nothing but operands. -/
def readOperands (v : Level) (st : LevelState) : List String → Except UsageError LevelState
  | [] => .ok st
  | s :: l =>
    match st.readOperand v true s with
    | .ok st => readOperands v st l
    | .error e => .error e

/-- The command that an argument names, where one may stand. -/
def command? (v : Level) (st : LevelState) (s : String) : Option CommandName :=
  if v = .top && !st.awaitsValue then CommandName.ofText? s else none

/-- Reads one argument other than the separator. -/
def readArgument (v : Level) (st : LevelState) (s : String) : Except UsageError LevelState :=
  match Argument.ofText s with
  | .separator => .ok st
  | .long name value => st.readLong v name value
  | .letters l => st.readLetters v l
  | .word s => if st.awaitsValue then .ok (st.fill s) else st.readOperand v false s

/-- Reads arguments up to a command, and gives the command with the arguments behind it. -/
def read (v : Level) (st : LevelState) :
    List String → Except UsageError (LevelState × Option (CommandName × List String))
  | [] => .ok (st, none)
  | s :: l =>
    match st.command? v s with
    | some name => .ok (st, some (name, l))
    | none =>
      if Argument.ofText s = .separator then (st.readOperands v l).map fun st => (st, none)
      else
        match st.readArgument v s with
        | .ok st => read v st l
        | .error e => .error e

end LevelState

/-! ### Command lines -/

/-- The error that the arguments behind `help` end in: at most one command is named. -/
def helpRequest : List String → UsageError
  | [] => .help
  | [name] => if (CommandName.ofText? name).isSome then .help else .invalidCommand
  | _ => .invalidCommand

/-- The command with what was read behind its name. -/
def Command.ofState (name : CommandName) (st : LevelState) : Except UsageError Command :=
  let format := (st.value? .format).bind OutputFormat.ofText?
  let config := st.value? .config
  match name with
  | .check =>
    .ok (.check
      { paths := if st.operands.isEmpty then ["."] else st.operands
        format
        config
        verbose := (st.value? .verbose).isSome })
  | .list => .ok (.list { format, config })
  | .init => .ok (.init (st.value? .force).isSome)
  | .help => .error .help

namespace Invocation

/-- The choice of colours that was read at a level. -/
def colorOf (st : LevelState) : Option ColorChoice :=
  (st.value? .color).bind ColorChoice.ofText?

/-- The error of a command line without a command. -/
def withoutCommand (st : LevelState) : UsageError :=
  if st.settled.isEmpty then .nothingGiven else .missingCommand

/-- Reads what stands behind the name of a command. -/
def readCommand (name : CommandName) (args : List String) :
    Except UsageError (Command × LevelState) := do
  if name = .help then throw (helpRequest args)
  let (st, _) ← LevelState.read (.behind name) {} args
  let st ← st.settle
  return (← Command.ofState name st, st)

/-- Reads a command line. The choice of colours behind the command wins over that before it. -/
def ofArguments (args : List String) : Except UsageError Invocation := do
  let (top, command?) ← LevelState.read .top {} args
  match command? with
  | none => do
    let top ← top.settle
    throw (withoutCommand top)
  | some (name, rest) => do
    let (command, st) ← readCommand name rest
    let top ← top.settle
    return { command, color := (colorOf st).or (colorOf top) }

end Invocation

end PlaybookPolicy
