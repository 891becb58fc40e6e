import PlaybookPolicy.Program

/-!
# The program on a real file system

What a run can look at is read into a file tree first: the working directory, the paths that the
command line names, and the ignore files above them. After the run, files that differ are written
back.

## Main definitions

* `Snapshot.take` — the tree that a run looks at.
* `main` — the program.
-/

namespace PlaybookPolicy.Snapshot

/-- The names on an absolute path. -/
def placeOf (path : String) : Place :=
  (Path.segments (Text.Utf8.encode path)).filter fun s => !Path.isVoidSegment s

/-- The path of a place, as text. -/
def pathOf (place : Place) : String :=
  (FileTree.absolutePath place).display

/-- What stands at a place; a link leads straight to what it stands for in the end. -/
def nodeAt (place : Place) : IO (Option Node) := do
  try
    let path := (← IO.currentDir) / pathOf place
    match (← path.symlinkMetadata).type with
    | .dir => return some .directory
    | .file => return some (.file (← IO.FS.readBinFile path).toList)
    | .symlink =>
      let target ← IO.FS.realPath path
      return some (.link (Path.ofText target.toString))
    | .other => return none
  catch _ => return none

/-- Adds a place and what stands there. -/
def addPlace (t : FileTree) (place : Place) : IO FileTree := do
  match ← nodeAt place with
  | some node => return if (t.node? place).isSome then t else t.insert place node
  | none => return t

/-- Adds everything below a directory. -/
partial def addBelow (t : FileTree) (place : Place) : IO FileTree := do
  let path := (← IO.currentDir) / pathOf place
  let mut t := t
  for entry in ← path.readDir do
    let child := place ++ [Text.Utf8.encode entry.fileName]
    t ← addPlace t child
    if t.node? child = some .directory then
      t ← addBelow t child
  return t

/-- The files with rules in a directory, and what tells that it is the top of a repository. -/
def ruleFiles : List String :=
  [".ignore", ".gitignore", ".git", ".git/info", ".git/info/exclude"]

/-- Adds the directories on the way to a place, with their rules. -/
def addAbove (t : FileTree) (place : Place) : IO FileTree := do
  let mut t := t
  for directory in (directoriesAbove place).reverse do
    if !directory.isEmpty then
      t ← addPlace t directory
    for file in ruleFiles do
      t ← addPlace t (directory ++ placeOf file)
  return t

/-- Adds what a path leads to: the places on the way, and all that is below. -/
def addPath (t : FileTree) (path : String) : IO FileTree := do
  try
    let here ← IO.currentDir
    let spelled := placeOf (here / path).toString
    let real := placeOf (← IO.FS.realPath (here / path)).toString
    let mut t ← addAbove t spelled
    t ← addPlace t spelled
    t ← addAbove t real
    t ← addPlace t real
    if t.node? real = some .directory then
      t ← addBelow t real
    return t
  catch _ => return t

/-- The paths that an invocation names. -/
def pathsOf (i : Invocation) : List String :=
  match i.command with
  | .check options => options.paths ++ options.config.toList
  | .list options => options.config.toList
  | .init _ => []

/-- The tree that a run with the given arguments looks at. -/
def take (args : List String) : IO FileTree := do
  let here ← IO.currentDir
  let mut t : FileTree := { nodes := [], here := placeOf here.toString }
  match Invocation.ofArguments args with
  | .error _ => return t
  | .ok i =>
    let usual := t.here ++ placeOf configFileName
    t ← addAbove t usual
    t ← addPlace t usual
    for path in pathsOf i do
      t ← addPath t path
    return t

/-- Writes the files of a tree that differ from those before. -/
def writeBack (before after : FileTree) : IO Unit := do
  for (place, node) in after.nodes do
    match node with
    | .file content =>
      if before.node? place ≠ some (.file content) then
        IO.FS.writeBinFile (pathOf place) ⟨content.toArray⟩
    | _ => pure ()

end PlaybookPolicy.Snapshot

open PlaybookPolicy in
/-- Runs the program with the given arguments on the real file system. -/
def main (args : List String) : IO UInt32 := do
  let t ← Snapshot.take args
  let (reply, after) := t.run args
  Snapshot.writeBack t after
  IO.print reply.output
  IO.eprint reply.complaint
  return reply.exitCode.toUInt32
