import PlaybookPolicy.FileTree
import PlaybookPolicy.IgnoreFile

/-!
# Walking a file tree

A walk finds the files below a root, except those that ignore files leave out. The rules of a
directory are in its `.ignore` file and, inside a repository, in its `.gitignore` file and in the
exclude file of the repository. Rules of deeper directories are stronger; any `.ignore` file is
stronger than any `.gitignore` file, and that than any exclude file. Links below the root are not
entered, and neither are directories that are left out. A faulty rule below the root is passed over,
but one above it makes the walk fail.

## Main definitions

* `FileTree.excludeFile?` — the exclude file of a repository.
* `FileTree.verdict?` — what all rules together say about an entry.
* `FileTree.isVisited` — the entry and its directories below the root are not left out.
* `FileTree.walk` — the files that a walk finds.
-/

namespace PlaybookPolicy

/-- The directories above a place, deepest first. -/
def directoriesAbove (place : Place) : List Place :=
  (List.range place.length).reverse.map fun n => place.take n

/-- The octets of the names below a directory, with slashes between them. -/
def octetsOfNames (names : Place) : List UInt8 :=
  (names.intersperse [Path.slash]).flatten

namespace FileTree

/-! ### Ignore files -/

/-- The path of an entry of a directory. -/
def entryPath (name : String) (directory : Place) : Path :=
  (absolutePath directory).join (Path.ofText name)

/-- The first line of the file that a path leads to, if it is a text. -/
def firstLine? (t : FileTree) (p : Path) : Option String :=
  match t.read p with
  | .ok (b :: content) => (octetLines (b :: content)).head?.bind Text.Utf8.decode?
  | _ => none

/-- The data of a repository whose mark is a file: the file names a directory, where another file
names the data. -/
def linkedRepository? (t : FileTree) (mark : Path) : Option Path := do
  let line ← t.firstLine? mark
  let target ← "gitdir: ".toList.isPrefixOf? line.toList
  let directory := Path.ofText (String.ofList target)
  let data ← t.firstLine? (directory.join (Path.ofText "commondir"))
  return if data.startsWith "." then directory.join (Path.ofText data) else Path.ofText data

/-- The exclude file of the repository with its top in a directory. -/
def excludeFile? (t : FileTree) (directory : Place) : Option Path :=
  let mark := entryPath ".git" directory
  let data? := match t.look mark with
    | some (.file _) => t.linkedRepository? mark
    | _ => some mark
  data?.map fun data => data.join (Path.ofText "info/exclude")

/-- The rules of an ignore file; none if the file cannot be read. -/
def rulesOf (t : FileTree) (file : Path) : List IgnoreRule :=
  match t.read file with
  | .ok content => ignoreRules content
  | .error _ => []

/-- The faulty lines of an ignore file. -/
def faultsOf (t : FileTree) (file : Path) : List RuleFault :=
  match t.read file with
  | .ok content => (ruleFaults content).map fun (line, reason) => { file, line, reason }
  | .error _ => []

/-- The faulty lines of all ignore files above a place, from the root directory down. -/
def faultsAbove (t : FileTree) (place : Place) : List RuleFault :=
  (directoriesAbove place).reverse.flatMap fun d =>
    t.faultsOf (entryPath ".ignore" d) ++ t.faultsOf (entryPath ".gitignore" d) ++
      (t.excludeFile? d).toList.flatMap t.faultsOf

/-! ### Verdicts -/

/-- The directory is the top of a repository. -/
def isRepository (t : FileTree) (directory : Place) : Bool :=
  t.has (entryPath ".git" directory)

/-- The directories, deepest first, up to the top of the repository they are in; none if they are in
no repository. -/
def repositoryPart (t : FileTree) (directories : List Place) : List Place :=
  if directories.any t.isRepository then
    let inner := directories.takeWhile fun d => !t.isRepository d
    directories.take (inner.length + 1)
  else []

/-- What the ignore files of one kind in the directories say about a place: the first that says
anything decides. -/
def verdictIn? (t : FileTree) (file? : Place → Option Path) (directories : List Place)
    (place : Place) (isDirectory : Bool) : Option Verdict :=
  directories.findSome? fun d => (file? d).bind fun file =>
    PlaybookPolicy.verdict? (t.rulesOf file) (octetsOfNames (place.drop d.length)) isDirectory

/-- What all rules together say about a place. -/
def verdict? (t : FileTree) (place : Place) (isDirectory : Bool) : Option Verdict :=
  let directories := directoriesAbove place
  let inner := t.repositoryPart directories
  (t.verdictIn? (some ∘ entryPath ".ignore") directories place isDirectory).or <|
    (t.verdictIn? (some ∘ entryPath ".gitignore") inner place isDirectory).or <|
      t.verdictIn? t.excludeFile? inner place isDirectory

/-- The place is left out by the rules. -/
def isIgnored (t : FileTree) (place : Place) (isDirectory : Bool) : Bool :=
  t.verdict? place isDirectory = some .ignored

/-- A walk from `root` comes by the file with the given names below it: neither the file nor a
directory on the way is left out. -/
def isVisited (t : FileTree) (root names : Place) : Bool :=
  !t.isIgnored (root ++ names) false &&
    (List.range (names.length - 1)).all fun n => !t.isIgnored (root ++ names.take (n + 1)) true

/-! ### Walks -/

/-- The root that stands for standard input, where a walk finds nothing. -/
def inputRoot : Path :=
  Path.ofText "-"

/-- The files that a walk from a root finds, each as the root and the names below it. A root that is
a file is found itself, even if rules leave it out. -/
def walk (t : FileTree) (root : Path) : Except DiscoveryError (List Path) :=
  if root = inputRoot then .ok []
  else match t.locate true root with
    | .error cause => .error (.unwalkable root cause)
    | .ok found =>
      match found.node? with
      | some .directory =>
        let faults := t.faultsAbove found.place
        if faults.isEmpty then
          .ok (((t.filesBelow found.place).filter (t.isVisited found.place)).map fun names =>
            root.join ⟨octetsOfNames names⟩)
        else .error (.faultyRules faults)
      | some (.file _) => .ok [root]
      | _ => .error (.unwalkable root .notFound)

end FileTree

end PlaybookPolicy
