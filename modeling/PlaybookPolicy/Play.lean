import PlaybookPolicy.Failure
import PlaybookPolicy.FileKind
import PlaybookPolicy.Yaml.Value

/-!
# Plays

A play, reduced to what rules inspect: the collections it declares, and where it stands.

## Main definitions

* `Play` — the file, the declared collections, a name and a line.
* `Play.collectionsOf` — the collections that a mapping declares.
* `Play.ofMapping` — the play that a mapping writes.
-/

namespace PlaybookPolicy

open Yaml (Value Mapping)

/-- A play of a file. -/
structure Play where
  /-- The kind of the file. -/
  kind : FileKind
  /-- The file. -/
  path : Path
  /-- The declared collections, in document order. -/
  collections : List String := []
  /-- The name of the play. -/
  name : Option String := none
  /-- The line that declares the name, counted from one. -/
  line : Option Nat := none
  deriving Inhabited, DecidableEq

namespace Play

/-- The play declares the collection. -/
def declares (p : Play) (collection : String) : Bool :=
  p.collections.contains collection

/-- The collections that a mapping declares: none without the entry, else all items of a list of
texts. -/
def collectionsOf (m : Mapping) : Except LoadError (List String) :=
  match Mapping.get? m "collections" with
  | none => .ok []
  | some .null => .ok []
  | some (.sequence items) =>
    match items.mapM Value.asText? with
    | some names => .ok names
    | none => .error .invalidCollections
  | some _ => .error .invalidCollections

/-- The play that a mapping of a file writes. -/
def ofMapping (kind : FileKind) (path : Path) (m : Mapping) : Except LoadError Play :=
  (collectionsOf m).map fun collections =>
    { kind, path, collections, name := (Mapping.get? m "name").bind Value.asText? }

end Play

end PlaybookPolicy
