import PlaybookPolicy.Path
import PlaybookPolicy.Text.Listing

/-!
# Failures

Why something could not be done, one type for each activity, and the sentences that report it.

## Main definitions

* `FileError` — a file could not be read or written.
* `ConfigError` — a configuration is not acceptable.
* `RuleError` — a configuration does not fit the rules there are.
* `LoadError` — a playbook or task file could not be loaded.
* `RuleFault` — a line of an ignore file is faulty.
* `DiscoveryError` — the files to lint could not be listed.
* `Failure` — any of these, as the program reports it.
-/

namespace PlaybookPolicy

/-- Why a file could not be read or written. -/
inductive FileError where
  /-- Nothing has that path. -/
  | notFound
  /-- A file stands where the path needs a directory. -/
  | notDirectory
  /-- The path leads to a directory. -/
  | isDirectory
  /-- The path leads through too many links. -/
  | linkLoop
  /-- The path or a name in it is too long. -/
  | nameTooLong
  /-- The path holds a NUL octet. -/
  | nulOctet
  /-- The content is no text. -/
  | notText
  /-- Another cause, in the words of the system. -/
  | other (text : String)
  deriving DecidableEq, Repr

/-- The words of the system for a cause. -/
def FileError.message : FileError → String
  | notFound => "No such file or directory (os error 2)"
  | notDirectory => "Not a directory (os error 20)"
  | isDirectory => "Is a directory (os error 21)"
  | linkLoop => "Too many levels of symbolic links (os error 40)"
  | nameTooLong => "File name too long (os error 36)"
  | nulOctet => "file name contained an unexpected NUL byte"
  | notText => "stream did not contain valid UTF-8"
  | other text => text

/-- Why a configuration is not acceptable. -/
inductive ConfigError where
  /-- The file could not be read. -/
  | unreadable (cause : FileError)
  /-- The text is no configuration: its syntax or its shape is wrong. -/
  | malformed
  /-- The configuration is of the right shape but does not make sense. -/
  | invalid (reason : String)
  deriving DecidableEq, Repr

/-- The sentence that reports a configuration error. The wording of syntax errors is not part of
it. -/
def ConfigError.message : ConfigError → String
  | unreadable cause => "I/O error: " ++ cause.message
  | malformed => "Invalid configuration syntax: <toml>"
  | invalid reason => "Invalid configuration: " ++ reason

/-- Why a configuration does not fit the rules there are. -/
inductive RuleError where
  /-- No rule has that id. -/
  | notFound (id : String)
  /-- The rule has no such option. -/
  | invalidOption (rule option : String)
  deriving DecidableEq, Repr

/-- The sentence that reports a rule error. -/
def RuleError.message : RuleError → String
  | notFound id => "Rule not found: " ++ id
  | invalidOption rule option => "Invalid option '" ++ option ++ "' for rule '" ++ rule ++ "'"

/-- Why a playbook or task file could not be loaded. -/
inductive LoadError where
  /-- The file could not be read. -/
  | unreadable (path : Path) (cause : FileError)
  /-- The file is no YAML. -/
  | invalidYaml (path : Path)
  /-- A task names no module. -/
  | missingModule (name : Option String)
  /-- A play declares collections that are no list of texts. -/
  | invalidCollections
  deriving DecidableEq

/-- The sentence that reports a load error. The wording of YAML errors is not part of it. -/
def LoadError.message : LoadError → String
  | unreadable path cause => "Failed to read " ++ path.display ++ ": " ++ cause.message
  | invalidYaml path => "Invalid YAML in " ++ path.display ++ ": <yaml>"
  | missingModule none => "Task has no module"
  | missingModule (some name) => "Task has no module (task '" ++ name ++ "')"
  | invalidCollections => "'collections' must be a list of strings"

/-- A line of an ignore file that should be a rule and is none. -/
structure RuleFault where
  /-- The file. -/
  file : Path
  /-- The number of the line. -/
  line : Nat
  /-- What is wrong with it. -/
  reason : String
  deriving DecidableEq

/-- The sentence that reports a faulty line. -/
def RuleFault.message (f : RuleFault) : String :=
  f.file.display ++ ": line " ++ toString f.line ++ ": " ++ f.reason

/-- Why the files to lint could not be listed. -/
inductive DiscoveryError where
  /-- A pattern is no glob. -/
  | invalidGlob (pattern reason : String)
  /-- A path could not be walked. -/
  | unwalkable (path : Path) (cause : FileError)
  /-- Ignore files above the root have faulty lines. -/
  | faultyRules (faults : List RuleFault)
  deriving DecidableEq

/-- The sentence that reports a discovery error. -/
def DiscoveryError.message : DiscoveryError → String
  | invalidGlob pattern reason => "Invalid glob pattern '" ++ pattern ++ "': " ++ reason
  | unwalkable path cause =>
    "Walk error: " ++ path.display ++ ": IO error for operation on " ++ path.display ++ ": " ++
      cause.message
  | faultyRules faults => "Walk error: " ++ Text.joined "\n" (faults.map RuleFault.message)

/-- Any failure of the program. -/
inductive Failure where
  /-- The configuration is at fault. -/
  | config (e : ConfigError)
  /-- The configuration does not fit the rules. -/
  | rule (e : RuleError)
  /-- A playbook could not be loaded. -/
  | load (e : LoadError)
  /-- The files to lint could not be listed. -/
  | discovery (e : DiscoveryError)
  /-- A file could not be read or written. -/
  | file (e : FileError)
  deriving DecidableEq

/-- The sentence that reports a failure. -/
def Failure.message : Failure → String
  | config e => "Configuration error: " ++ e.message
  | rule e => "Rule error: " ++ e.message
  | load e => "Playbook error: " ++ e.message
  | discovery e => "File walker error: " ++ e.message
  | file e => "I/O error: " ++ e.message

end PlaybookPolicy
