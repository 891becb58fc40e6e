import PlaybookPolicy.Failure

/-!
# File trees

A tree of directories, files and links, with the directory that relative paths start at. A place in
it is the list of names from the root directory down; the tree is a finite map from places to what
stands there.

## Main definitions

* `FileTree` — the tree.
* `FileTree.locate` — the place that a path leads to, and what stands there.
* `FileTree.read`, `FileTree.readText`, `FileTree.has` — what can be seen of a path.
* `FileTree.write`, `FileTree.makeDirectories`, `FileTree.link` — changes.
-/

namespace PlaybookPolicy

/-- The name of an entry of a directory. -/
abbrev EntryName := List UInt8

/-- The names from the root directory down. -/
abbrev Place := List EntryName

/-- What stands at a place. -/
inductive Node where
  /-- A file with its content. -/
  | file (content : List UInt8)
  /-- A directory. -/
  | directory
  /-- A link to a path. -/
  | link (target : Path)
  deriving DecidableEq

/-- A tree of directories, files and links. -/
structure FileTree where
  /-- What stands at the places other than the root directory. -/
  nodes : List (Place × Node)
  /-- The directory that relative paths start at. -/
  here : Place
  deriving DecidableEq

/-- A place that a path leads to. Nothing needs to stand there, but its directory exists. -/
structure Located where
  /-- The place. -/
  place : Place
  /-- What stands there. -/
  node? : Option Node
  deriving DecidableEq

namespace FileTree

/-- What stands at a place. The root directory always exists. -/
def node? (t : FileTree) (place : Place) : Option Node :=
  if place.isEmpty then some .directory else t.nodes.lookup place

/-- Puts a node in the place of the first with the same place, or behind all others. -/
def insertNode (place : Place) (node : Node) : List (Place × Node) → List (Place × Node)
  | [] => [(place, node)]
  | (p, n) :: l => if p = place then (place, node) :: l else (p, n) :: insertNode place node l

/-- The tree with another node at a place. -/
def insert (t : FileTree) (place : Place) (node : Node) : FileTree :=
  { t with nodes := insertNode place node t.nodes }

/-! ### Paths -/

/-- The longest name of an entry, in octets. -/
def nameLimit : Nat := 255

/-- The longest path, in octets. -/
def pathLimit : Nat := 4095

/-- How many links a path may lead through. -/
def linkLimit : Nat := 40

/-- Follows the stretches of a path from a directory. At a link, `enter` continues from the directory
the link stands in with the stretches of its target and those that are left; unless `follow` is set,
a link at the very end is not entered. -/
def followSegments (t : FileTree) (follow : Bool)
    (enter : Place → List (List UInt8) → Except FileError Located) :
    Place → List (List UInt8) → Except FileError Located
  | place, [] => .ok ⟨place, t.node? place⟩
  | place, s :: rest =>
    if t.node? place ≠ some .directory then .error .notDirectory
    else if Path.isVoidSegment s then followSegments t follow enter place rest
    else if s == Path.dotDot then followSegments t follow enter place.dropLast rest
    else if s.length > nameLimit then .error .nameTooLong
    else
      let child := place ++ [s]
      match t.node? child with
      | none => if rest.isEmpty then .ok ⟨child, none⟩ else .error .notFound
      | some (.link target) =>
        if rest.isEmpty && !follow then .ok ⟨child, some (.link target)⟩
        else
          enter (if target.isAbsolute then [] else place) (Path.segments target.octets ++ rest)
      | some _ => followSegments t follow enter child rest

/-- Follows the stretches of a path through at most the given number of links. -/
def followLinks (t : FileTree) (follow : Bool) :
    Nat → Place → List (List UInt8) → Except FileError Located
  | 0 => followSegments t follow fun _ _ => .error .linkLoop
  | n + 1 => followSegments t follow (followLinks t follow n)

/-- The place that a path leads to. Unless `follow` is set, a link at the end of the path is itself
what the path leads to. -/
def locate (t : FileTree) (follow : Bool) (p : Path) : Except FileError Located :=
  if p.octets.isEmpty then .error .notFound
  else if p.octets.contains 0 then .error .nulOctet
  else if p.octets.length > pathLimit then .error .nameTooLong
  else
    t.followLinks follow linkLimit (if p.isAbsolute then [] else t.here) (Path.segments p.octets)

/-- The absolute path of a place. -/
def absolutePath (place : Place) : Path :=
  ⟨Path.slash :: (place.intersperse [Path.slash]).flatten⟩

/-! ### Looking -/

/-- What a path leads to, through any links. -/
def look (t : FileTree) (p : Path) : Option Node :=
  match t.locate true p with
  | .ok found => found.node?
  | .error _ => none

/-- The path leads to something. -/
def has (t : FileTree) (p : Path) : Bool :=
  (t.look p).isSome

/-- The content of the file that a path leads to. -/
def read (t : FileTree) (p : Path) : Except FileError (List UInt8) :=
  match t.locate true p with
  | .error e => .error e
  | .ok found =>
    match found.node? with
    | some (.file content) => .ok content
    | some .directory => .error .isDirectory
    | _ => .error .notFound

/-- The text of the file that a path leads to. -/
def readText (t : FileTree) (p : Path) : Except FileError String :=
  match t.read p with
  | .error e => .error e
  | .ok content =>
    match Text.Utf8.decode? content with
    | some s => .ok s
    | none => .error .notText

/-- The places of the files below a directory, as the names that lead there. -/
def filesBelow (t : FileTree) (directory : Place) : List Place :=
  t.nodes.filterMap fun
    | (place, .file _) =>
      if directory.isPrefixOf place then some (place.drop directory.length) else none
    | _ => none

/-! ### Changing -/

/-- The tree with other content in the file that a path leads to. A file that does not exist is made
where the path leads. -/
def write (t : FileTree) (p : Path) (content : List UInt8) : Except FileError FileTree :=
  match t.locate true p with
  | .error e => .error e
  | .ok found =>
    if found.node? = some .directory then .error .isDirectory
    else .ok (t.insert found.place (.file content))

/-- Makes a directory where a path leads, if nothing stands there. -/
def makeDirectory (t : FileTree) (p : Path) : FileTree :=
  match t.locate true p with
  | .ok ⟨place, none⟩ => t.insert place .directory
  | _ => t

/-- Makes all directories on the way of a path. -/
def makeDirectories (t : FileTree) (p : Path) : FileTree :=
  let segs := Path.segments p.octets
  (List.range segs.length).foldl
    (fun t i => t.makeDirectory (Path.ofSegments (segs.take (i + 1)))) t

/-- Makes a link where a path leads, if nothing stands there. -/
def link (t : FileTree) (p target : Path) : FileTree :=
  match t.locate false p with
  | .ok ⟨place, none⟩ => t.insert place (.link target)
  | _ => t

end FileTree

end PlaybookPolicy
