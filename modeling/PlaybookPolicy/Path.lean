import PlaybookPolicy.Text.Utf8

/-!
# Paths

A path is any sequence of octets. Its parts are what lies between the slashes: repeated slashes and
inner `.` parts count for nothing, so `a//b` and `a/./b` have the parts of `a/b`. Paths are compared
part by part.

## Main definitions

* `Path` — the octets of a path.
* `Path.parts` — its parts.
* `Path.compareParts`, `Path.sameParts` — the order by parts, and equality under it.
* `Path.fileName?`, `Path.parentNames` — the last name, and the names before it.
* `Path.stripParts?` — the rest of a path behind a leading path.
* `Path.join` — a name below a path.
* `Path.display` — the text shown for a path.
-/

namespace PlaybookPolicy

/-- A path: any octets, not necessarily text. -/
structure Path where
  /-- The octets of the path. -/
  octets : List UInt8
  deriving DecidableEq, Inhabited

/-- A part of a path. -/
inductive PathPart where
  /-- The slash that makes a path absolute. -/
  | root
  /-- A leading `.`. -/
  | here
  /-- `..` -/
  | up
  /-- A name. -/
  | name (octets : List UInt8)
  deriving DecidableEq

namespace PathPart

/-- Root, `.`, `..` and names come in this order. -/
def rank : PathPart → Nat
  | root => 0
  | here => 1
  | up => 2
  | name _ => 3

/-- Octet sequences compare as words. -/
def compareOctets (a b : List UInt8) : Ordering :=
  compare (a.map UInt8.toNat) (b.map UInt8.toNat)

/-- The order of parts: by rank, and names octet by octet. -/
def compare (a b : PathPart) : Ordering :=
  match a, b with
  | name x, name y => compareOctets x y
  | a, b => Ord.compare a.rank b.rank

end PathPart

namespace Path

/-- The slash. -/
def slash : UInt8 := 47

/-- The octets of the part `.`. -/
def dot : List UInt8 := [46]

/-- The octets of the part `..`. -/
def dotDot : List UInt8 := [46, 46]

/-- The path that a text writes. -/
def ofText (s : String) : Path :=
  ⟨Text.Utf8.encode s⟩

/-- The text of a path, if it is well-formed UTF-8. -/
def text? (p : Path) : Option String :=
  Text.Utf8.decode? p.octets

/-- The text shown for a path, with the replacement character where it is no text. -/
def display (p : Path) : String :=
  Text.Utf8.decodeLossy p.octets

/-- The stretches between the slashes, empty ones included. -/
def segments (l : List UInt8) : List (List UInt8) :=
  l.splitOn slash

/-- The path of the given stretches. -/
def ofSegments (l : List (List UInt8)) : Path :=
  ⟨(l.intersperse [slash]).flatten⟩

/-- The part that a stretch writes; none for an empty one and for `.`. -/
def partOfSegment (s : List UInt8) : Option PathPart :=
  if s.isEmpty || s == dot then none
  else if s == dotDot then some .up
  else some (.name s)

/-- The path begins with a slash. -/
def isAbsolute (p : Path) : Bool :=
  p.octets.head? == some slash

/-- The parts of a path. -/
def parts (p : Path) : List PathPart :=
  let segs := segments p.octets
  let names := segs.filterMap partOfSegment
  if p.isAbsolute then .root :: names
  else if segs.head? == some dot then .here :: names
  else names

/-- The order of part lists: the first difference decides, and a shorter list comes first. -/
def comparePartLists : List PathPart → List PathPart → Ordering
  | [], [] => .eq
  | [], _ :: _ => .lt
  | _ :: _, [] => .gt
  | a :: as, b :: bs => (a.compare b).then (comparePartLists as bs)

/-- The order of paths, part by part. -/
def compareParts (p q : Path) : Ordering :=
  comparePartLists p.parts q.parts

/-- The paths have the same parts. -/
def sameParts (p q : Path) : Bool :=
  p.parts == q.parts

/-- The last part, if it is a name. -/
def fileName? (p : Path) : Option (List UInt8) :=
  match p.parts.getLast? with
  | some (.name n) => some n
  | _ => none

/-- The names among the parts before the last one, as far as they are text. -/
def parentNames (p : Path) : List String :=
  p.parts.dropLast.filterMap fun
    | .name n => Text.Utf8.decode? n
    | _ => none

/-- The stretch counts for nothing at the edge of a path. -/
def isVoidSegment (s : List UInt8) : Bool :=
  s.isEmpty || s == dot

/-- The stretches without void ones at either end. -/
def trimSegments (l : List (List UInt8)) : List (List UInt8) :=
  ((l.dropWhile isVoidSegment).reverse.dropWhile isVoidSegment).reverse

/-- The stretches behind those that write the given names. -/
def dropSegments : List PathPart → List (List UInt8) → Option (List (List UInt8))
  | [], l => some l
  | _ :: _, [] => none
  | part :: ps, s :: l =>
    match partOfSegment s with
    | none => dropSegments (part :: ps) l
    | some q => if part = q then dropSegments ps l else none

/-- The rest of the path behind the parts of `base`, as it is written, if it begins with them. -/
def stripParts? (p base : Path) : Option Path :=
  let segs := segments p.octets
  let rest? :=
    match base.parts with
    | [] => some segs
    | .root :: names => if p.isAbsolute then dropSegments names (segs.drop 1) else none
    | .here :: names =>
      if segs.head? == some dot && !p.isAbsolute then dropSegments names (segs.drop 1) else none
    | names =>
      if p.isAbsolute || segs.head? == some dot then none else dropSegments names segs
  rest?.map fun l => if base.parts.isEmpty then ofSegments l else ofSegments (trimSegments l)

/-- The path of a name below a directory. An absolute second path replaces the first. -/
def join (p q : Path) : Path :=
  if q.isAbsolute || p.octets.isEmpty then q
  else if p.octets.getLast? == some slash then ⟨p.octets ++ q.octets⟩
  else ⟨p.octets ++ slash :: q.octets⟩

end Path

end PlaybookPolicy
