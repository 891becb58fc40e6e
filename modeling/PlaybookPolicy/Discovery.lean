import PlaybookPolicy.Config.Basic
import PlaybookPolicy.Walk

/-!
# Finding the files to lint

The files that walks from several roots find are filtered by patterns, sorted, and freed of
repetitions. A pattern is matched against the path below the root.

## Main definitions

* `FileFilter` — patterns of files to take and to leave.
* `matchPath` — the path that patterns are matched against.
* `FileTree.select` — the files that one walk finds and the filter takes.
* `FileTree.discover` — the files of a list of roots.
-/

namespace PlaybookPolicy

/-- The pattern of what belongs to a repository itself. -/
def repositoryPattern : String :=
  "**/.git/**"

/-- Patterns of files to take and to leave. -/
structure FileFilter where
  /-- Files to take; without any, all files are. -/
  includes : List Glob
  /-- Files to leave. -/
  excludes : List Glob

/-- The pattern that a text writes, as it is needed for finding files. -/
def globFor (text : String) : Except DiscoveryError Glob :=
  (Glob.parse text).mapError fun e => .invalidGlob text (e.message text)

namespace FileFilter

/-- The filter of the given patterns. What belongs to a repository itself is always left. -/
def ofPatterns (includes excludes : List String) : Except DiscoveryError FileFilter := do
  let includes ← includes.mapM globFor
  let excludes ← (excludes ++ [repositoryPattern]).mapM globFor
  return { includes, excludes }

/-- The filter takes a file with the given path for patterns. -/
def takes (f : FileFilter) (p : Path) : Bool :=
  (f.includes.isEmpty || f.includes.any fun g => g.isMatch p) &&
    !f.excludes.any fun g => g.isMatch p

end FileFilter

/-- The path that patterns are matched against: the path below the root, or the path itself if it is
the root; without a leading `.`. -/
def matchPath (root p : Path) : Path :=
  let inner := match p.stripParts? root with
    | some rest => if rest.octets.isEmpty then p else rest
    | none => p
  (inner.stripParts? (Path.ofText ".")).getD inner

namespace FileTree

/-- The files that a walk from a root finds and the patterns let through. -/
def select (t : FileTree) (includes excludes : List String) (root : Path) :
    Except DiscoveryError (List Path) := do
  let filter ← FileFilter.ofPatterns includes excludes
  let files ← t.walk root
  return files.filter fun p => filter.takes (matchPath root p)

/-- The first path may stand before the second. -/
def comesBefore (p q : Path) : Bool :=
  (p.compareParts q).isLE

/-- The sorted paths, without those that have the parts of the one before. -/
def sortedPaths (l : List Path) : List Path :=
  dropRepeated (l.mergeSort comesBefore)
where
  /-- Drops what has the parts of the path before. -/
  dropRepeated : List Path → List Path
    | [] => []
    | p :: l => p :: dropRepeatedAfter p l
  /-- Drops what has the parts of the path before, the first of which is given. -/
  dropRepeatedAfter (last : Path) : List Path → List Path
    | [] => []
    | p :: l => if p.sameParts last then dropRepeatedAfter last l else p :: dropRepeatedAfter p l

/-- The files to lint below the given roots, sorted. -/
def discover (t : FileTree) (c : Config) (roots : List Path) : Except DiscoveryError (List Path) :=
  (roots.mapM (t.select c.includes c.excludes)).map fun found => sortedPaths found.flatten

end FileTree

end PlaybookPolicy
