/-!
# Plain data

A tree of plain data: what a configuration text or a JSON record holds before anything is known
about its shape.

## Main definitions

* `Datum` — scalars, lists and tables; a table keeps its entries in written order.
* `Datum.entries?` — the entries of a table of either kind.
* `Datum.get?` — the value under a key of a table.
-/

namespace PlaybookPolicy

/-- A tree of plain data. -/
inductive Datum where
  /-- The value that stands for nothing. -/
  | null
  /-- A truth value. -/
  | bool (b : Bool)
  /-- An integer. -/
  | int (n : Int)
  /-- A double. -/
  | float (x : Float)
  /-- A text. -/
  | text (s : String)
  /-- A sequence of values. -/
  | list (items : List Datum)
  /-- Values under keys, in written order. -/
  | table (entries : List (String × Datum))
  /-- Values under keys whose lines may stand in several places of the text. -/
  | scattered (entries : List (String × Datum))
  deriving Inhabited

namespace Datum

/-- The entries of a table, written in one place or scattered. -/
def entries? : Datum → Option (List (String × Datum))
  | .table entries => some entries
  | .scattered entries => some entries
  | _ => none

/-- The value under a key, if the datum is a table that has the key. -/
def get? (d : Datum) (key : String) : Option Datum :=
  d.entries?.bind (·.lookup key)

/-- A list of texts. -/
def texts (l : List String) : Datum :=
  .list (l.map .text)

/-- A text, or null. -/
def ofText? : Option String → Datum
  | none => .null
  | some s => .text s

/-- A natural number, or null. -/
def ofNat? : Option Nat → Datum
  | none => .null
  | some n => .int n

end Datum

end PlaybookPolicy
