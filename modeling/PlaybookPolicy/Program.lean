import PlaybookPolicy.CommandLine
import PlaybookPolicy.Config.Validate
import PlaybookPolicy.Discovery
import PlaybookPolicy.Report.Human
import PlaybookPolicy.Report.RuleList
import PlaybookPolicy.Template

/-!
# The program

Every command takes a file tree and gives a reply: what is printed, and how the program ends.

## Main definitions

* `FileTree.loadConfig`, `FileTree.load`, `FileTree.lint` — configurations and playbooks in a tree.
* `Reply` — what a run of the program prints and how it ends.
* `FileTree.check`, `FileTree.listRules`, `FileTree.initIn` — the commands.
* `FileTree.run` — the program as a whole.
-/

namespace PlaybookPolicy

/-! ### Files -/

namespace FileTree

/-- The configuration in the file that a path leads to. -/
def configAt (t : FileTree) (p : Path) : Except ConfigError Config :=
  match t.readText p with
  | .error cause => .error (.unreadable cause)
  | .ok text => Config.parse text

/-- The configuration of a run: in the given file, or else in the usual one, or else the default
one. -/
def loadConfig (t : FileTree) (file? : Option String) : Except ConfigError Config :=
  match file? with
  | some file => t.configAt (Path.ofText file)
  | none =>
    let usual := Path.ofText configFileName
    if t.has usual then t.configAt usual else .ok {}

/-- The playbook file that a path leads to. -/
def load (t : FileTree) (p : Path) : Except LoadError PlaybookFile :=
  match t.readText p with
  | .error cause => .error (.unreadable p cause)
  | .ok content => PlaybookFile.parse p content

/-- What the rules find in a list of files. -/
def lint (t : FileTree) (g : Registry) (files : List Path) : Outcome :=
  Outcome.ofFiles g t.load files

end FileTree

/-! ### Replies -/

/-- What a run of the program prints and how it ends. The log of a run is no part of it: its lines go
to standard error too, but they bear the time at which they are written. -/
structure Reply where
  /-- The exit code. -/
  exitCode : Nat
  /-- What is printed. -/
  output : String := ""
  /-- What is printed as an error, but for lines of the log. -/
  complaint : String := ""
  deriving DecidableEq, Repr

/-- The exit code of a failure: a configuration that cannot be read as one has its own. -/
def Failure.exitCode : Failure → Nat
  | config .malformed => 3
  | _ => 2

/-- The reply of a run that failed. -/
def Reply.ofFailure (e : Failure) : Reply :=
  { exitCode := e.exitCode, complaint := "Error: " ++ e.message ++ "\n" }

/-- The reply of a run that may have failed. -/
def Reply.ofResult : Except Failure Reply → Reply
  | .ok r => r
  | .error e => .ofFailure e

/-! ### Commands -/

namespace FileTree

/-- The configuration of a run, and the rules that it leaves on. -/
def setUp (t : FileTree) (file? : Option String) : Except Failure (Config × Registry) := do
  let c ← (t.loadConfig file?).mapError .config
  let g ← (Registry.ofConfig c).mapError .rule
  return (c, g)

/-- The outcome of a check. -/
def outcome (t : FileTree) (paths : List String) (c : Config) (g : Registry) :
    Except Failure Outcome := do
  let files ← (t.discover c (paths.map Path.ofText)).mapError .discovery
  return t.lint g files

end FileTree

/-- Output is coloured: the choice on the command line wins over the configuration, and without a
terminal only `always` stands for colours. -/
def isColored (choice : Option ColorChoice) (c : Config) : Bool :=
  choice.getD c.color = .always

/-- The report of an outcome in the form asked for. -/
def Outcome.report (o : Outcome) (format : OutputFormat) (colored : Bool) : String :=
  match format with
  | .human => o.humanText colored
  | .jsonl => o.recordText

/-- The list of the rules of a registry in the form asked for. -/
def Registry.list (g : Registry) (format : OutputFormat) : String :=
  let summaries := g.rules.map Rule.summary
  match format with
  | .human => RuleSummary.listText summaries
  | .jsonl => RuleSummary.recordText summaries

namespace FileTree

/-- Looks for violations: the exit code is 0 if there are none and 1 otherwise. -/
def check (t : FileTree) (options : CheckOptions) (color : Option ColorChoice) : Reply :=
  .ofResult do
    let (c, g) ← t.setUp options.config
    let o ← t.outcome options.paths c g
    return { exitCode := if o.passed then 0 else 1
             output := o.report (options.format.getD c.format) (isColored color c) }

/-- Lists the rules. -/
def listRules (t : FileTree) (options : ListOptions) : Reply :=
  .ofResult do
    let (c, g) ← t.setUp options.config
    return { exitCode := 0, output := g.list (options.format.getD c.format) }

end FileTree

/-- What became of a configuration file. -/
inductive InitResult where
  /-- There was none, and it was written. -/
  | created
  /-- There was one, and it was left alone. -/
  | skipped
  /-- There was one, and it was written anew. -/
  | overwritten
  deriving DecidableEq, Repr

namespace FileTree

/-- Writes a fresh configuration file into a directory. One that exists is left alone unless `force`
is set. -/
def initIn (t : FileTree) (directory : Path) (force : Bool) :
    Except FileError (InitResult × FileTree) :=
  let file := directory.join (Path.ofText configFileName)
  if t.has file && !force then .ok (.skipped, t)
  else
    (t.write file (Text.Utf8.encode configTemplate)).map fun after =>
      (if t.has file then .overwritten else .created, after)

/-- Writes a fresh configuration file into the working directory. -/
def initHere (t : FileTree) (force : Bool) : Reply × FileTree :=
  match t.initIn (Path.ofText ".") force with
  | .ok (.skipped, after) =>
    ({ exitCode := 0, output := "playlint.toml already exists. Use --force to overwrite it.\n" },
      after)
  | .ok (_, after) => ({ exitCode := 0, output := "Created playlint.toml.\n" }, after)
  | .error e => (.ofFailure (.file e), t)

/-- Does what a command line asks for, and gives the tree after it. -/
def execute (t : FileTree) (i : Invocation) : Reply × FileTree :=
  match i.command with
  | .check options => (t.check options i.color, t)
  | .list options => (t.listRules options, t)
  | .init force => t.initHere force

end FileTree

/-- The name of the program and its version. -/
def versionLine : String :=
  "playlint 0.1.0\n"

/-- The reply to a command line that asks for nothing that can be done. -/
def UsageError.reply : UsageError → Reply
  | version => { exitCode := 0, output := versionLine }
  | help => { exitCode := 0 }
  | _ => { exitCode := 2 }

/-- Runs the program with the given arguments, and gives the tree after the run. -/
def FileTree.run (t : FileTree) (args : List String) : Reply × FileTree :=
  match Invocation.ofArguments args with
  | .ok i => t.execute i
  | .error e => (e.reply, t)

end PlaybookPolicy
