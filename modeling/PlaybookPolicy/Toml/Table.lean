import PlaybookPolicy.Datum

/-!
# Tables under construction

A TOML text fills its tables piece by piece: a header opens a table for the lines below it, and a
dotted key reaches into tables of its own. Each table remembers how it came to be, since that
decides what may still be added to it.

## Main definitions

* `Origin` — how a table came to be.
* `Item` — a value, a table, or a sequence of tables.
* `descend` — changes the table at the end of a path.
* `insertKey`, `openTable`, `appendTable` — the three ways in which a text extends its tables.
-/

namespace PlaybookPolicy.Toml

/-- How a table came to be. -/
inductive Origin where
  /-- It was written itself: under a header, in braces, or as the whole text. -/
  | written
  /-- A header named a table inside it. -/
  | header
  /-- A dotted key named an entry inside it. -/
  | dotted
  deriving DecidableEq, Repr

/-- What stands under a key. -/
inductive Item where
  /-- A value that is complete. -/
  | value (d : Datum)
  /-- A table. -/
  | table (origin : Origin) (entries : List (String × Item))
  /-- A sequence of tables, each under a header of its own. -/
  | tables (l : List (List (String × Item)))
  deriving Inhabited

/-- The entries of a table, in written order. -/
abbrev Entries := List (String × Item)

/-- Puts another item under a key that the entries have. -/
def replaceKey (key : String) (item : Item) : Entries → Entries
  | [] => []
  | (k, i) :: es => if k == key then (k, item) :: es else (k, i) :: replaceKey key item es

/-- Changes the table at the end of a path. Tables missing on the way are made, and of a sequence of
tables the last one is entered. A dotted path does not enter tables that were written themselves,
and no path enters a value. -/
def descend (dotted : Bool) (change : Origin → Entries → Option Entries) :
    List String → Origin → Entries → Option Entries
  | [], origin, es => change origin es
  | key :: path, _, es =>
    match es.lookup key with
    | none =>
      let origin := if dotted then .dotted else .header
      (descend dotted change path origin []).map fun sub => es ++ [(key, .table origin sub)]
    | some (.value _) => none
    | some (.tables l) =>
      match l.getLast? with
      | none => none
      | some sub =>
        (descend dotted change path .written sub).map fun sub =>
          replaceKey key (.tables (l.dropLast ++ [sub])) es
    | some (.table origin sub) =>
      if dotted && origin = .written then none
      else
        (descend dotted change path origin sub).map fun sub =>
          replaceKey key (.table origin sub) es

/-- Adds a value under a dotted key. The key is new, and the tables on the way to it came from dotted
keys. -/
def insertKey (path : List String) (key : String) (d : Datum) (es : Entries) : Option Entries :=
  let insert (origin : Origin) (es : Entries) : Option Entries :=
    if (es.lookup key).isSome || (!path.isEmpty && origin ≠ .dotted) then none
    else some (es ++ [(key, .value d)])
  descend true insert path .written es

/-- Opens a table under a header. The table is new, or so far only other headers named it. -/
def openTable (path : List String) (key : String) (es : Entries) : Option Entries :=
  let open? (_ : Origin) (es : Entries) : Option Entries :=
    match es.lookup key with
    | none => some (es ++ [(key, .table .written [])])
    | some (.table .header sub) => some (replaceKey key (.table .written sub) es)
    | some _ => none
  descend false open? path .written es

/-- Appends a table to the sequence under a header. The sequence is new, or all of it came from such
headers. -/
def appendTable (path : List String) (key : String) (es : Entries) : Option Entries :=
  let append (_ : Origin) (es : Entries) : Option Entries :=
    match es.lookup key with
    | none => some (es ++ [(key, .tables [[]])])
    | some (.tables l) => some (replaceKey key (.tables (l ++ [[]])) es)
    | some _ => none
  descend false append path .written es

mutual

/-- The datum of an item. Tables are scattered unless they stand in braces. -/
def Item.datum (inBraces : Bool) : Item → Datum
  | .value d => d
  | .table _ es =>
    if inBraces then .table (entryData inBraces es) else .scattered (entryData inBraces es)
  | .tables l => .list (tableData inBraces l)

/-- The data of entries. -/
def entryData (inBraces : Bool) : List (String × Item) → List (String × Datum)
  | [] => []
  | (k, i) :: es => (k, i.datum inBraces) :: entryData inBraces es

/-- The data of a sequence of tables. -/
def tableData (inBraces : Bool) : List (List (String × Item)) → List Datum
  | [] => []
  | es :: l => .scattered (entryData inBraces es) :: tableData inBraces l

end

end PlaybookPolicy.Toml
