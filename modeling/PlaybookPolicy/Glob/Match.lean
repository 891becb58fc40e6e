import PlaybookPolicy.Glob.Basic
import PlaybookPolicy.Path

/-!
# Matching glob patterns

A pattern is matched against the octets of a whole path. Each part takes octets off the front in all
possible ways; what it may leave is a list of rests.

## Main definitions

* `GlobPart.rests`, `restsOf` — what a part, or a list of parts, may leave of a path.
* `Glob.isMatch` — the pattern matches a path.
-/

namespace PlaybookPolicy

/-- The list itself and all that is left when octets are taken off its front. -/
def suffixes : List UInt8 → List (List UInt8)
  | [] => [[]]
  | b :: l => (b :: l) :: suffixes l

/-- The octets of one character. -/
def octetsOf (c : Char) : List UInt8 :=
  String.utf8EncodeChar c

/-- The octets that a range of a class holds, as ranges. A range whose ends have several octets
reaches from the last octet of the first end to the first octet of the last end, and holds the other
octets of both ends. -/
def octetRanges (r : Char × Char) : List (UInt8 × UInt8) :=
  let single (b : UInt8) : UInt8 × UInt8 := (b, b)
  let low := octetsOf r.1
  let high := octetsOf r.2
  if r.1 = r.2 then low.map single
  else
    low.dropLast.map single ++
      (match low.getLast?, high.head? with
        | some a, some b => [(a, b)]
        | _, _ => []) ++
      (high.drop 1).map single

/-- The octet lies in one of the ranges. -/
def inRanges (ranges : List (Char × Char)) (b : UInt8) : Bool :=
  (ranges.flatMap octetRanges).any fun (low, high) => low ≤ b && b ≤ high

/-- The rests of the list that stand behind a slash. -/
def behindSlash (l : List UInt8) : List (List UInt8) :=
  (suffixes l).filterMap fun
    | b :: r => if b == Path.slash then some r else none
    | [] => none

/-! ### Parts -/

mutual

/-- The part is a group without a branch that holds anything. -/
def GlobPart.isVoid : GlobPart → Bool
  | .choice branches => areVoidBranches branches
  | _ => false

/-- All the parts are void. -/
def areVoid : List GlobPart → Bool
  | [] => true
  | part :: parts => part.isVoid && areVoid parts

/-- All the branches are void. -/
def areVoidBranches : List (List GlobPart) → Bool
  | [] => true
  | branch :: branches => areVoid branch && areVoidBranches branches

end

mutual

/-- What a part may leave of a path. If names are `separate`, a star and a question mark do not reach
across a slash. -/
def GlobPart.rests (separate : Bool) : GlobPart → List UInt8 → List (List UInt8)
  | .literal c, l => if (octetsOf c).isPrefixOf l then [l.drop (octetsOf c).length] else []
  | .one, b :: l => if separate && b == Path.slash then [] else [l]
  | .one, [] => []
  | .run, l =>
    if separate then
      (suffixes (l.takeWhile (· != Path.slash))).map fun s =>
        s ++ l.dropWhile (· != Path.slash)
    else suffixes l
  | .leading, l => l :: behindSlash l
  | .inside, l => if l.head? == some Path.slash then suffixes (l.drop 1) else []
  | .between, l =>
    if l.head? == some Path.slash then l.drop 1 :: behindSlash (l.drop 1) else []
  | .octetClass negated ranges, b :: l => if inRanges ranges b != negated then [l] else []
  | .octetClass _ _, [] => []
  | .choice branches, l =>
    if areVoidBranches branches then [l] else branchRests separate branches l

/-- What one of the branches may leave; void branches do not count. -/
def branchRests (separate : Bool) : List (List GlobPart) → List UInt8 → List (List UInt8)
  | [], _ => []
  | branch :: branches, l =>
    if areVoid branch then branchRests separate branches l
    else (partRests separate branch l ++ branchRests separate branches l).eraseDups

/-- What the parts may leave of a path, one after the other. -/
def partRests (separate : Bool) : List GlobPart → List UInt8 → List (List UInt8)
  | [], l => [l]
  | part :: parts, l =>
    ((part.rests separate l).flatMap fun r => partRests separate parts r).eraseDups

end

/-! ### Patterns -/

namespace Glob

/-- The part is a literal. -/
def isLiteral : GlobPart → Bool
  | .literal _ => true
  | _ => false

/-- The part is a star. -/
def isRun : GlobPart → Bool
  | .run => true
  | _ => false

/-- The part is a leading `**/`. -/
def isLeading : GlobPart → Bool
  | .leading => true
  | _ => false

/-- The part is the given character. -/
def isChar (c : Char) : GlobPart → Bool
  | .literal d => d == c
  | _ => false

/-- The pattern ends in a point and is settled by the name of a file rather than by its whole path:
it is neither all literal nor an ending of paths. -/
def endsNameInPoint (separate : Bool) (parts : List GlobPart) : Bool :=
  let rooted := parts.head?.any isLeading
  let rest := if rooted then parts.drop 1 else parts
  let starred := rest.head?.any isRun
  let isName := rooted && rest.all fun part => isLiteral part && !isChar '/' part
  let isExtension := starred && rest.length = 2 && (rooted || !separate)
  let isEnding := (if starred && !separate then rest.drop 1 else rest).all isLiteral
  parts.getLast?.any (isChar '.') && !parts.all isLiteral && (isName || isExtension || !isEnding)

/-- The parts match the octets of a path. A lone leading `**` matches everything. A path that ends
in a point has no name that a pattern could be settled by. -/
def partsMatch (separate : Bool) (parts : List GlobPart) (l : List UInt8) : Bool :=
  match parts with
  | [.leading] => true
  | parts =>
    (partRests separate parts l).any List.isEmpty &&
      !(l.getLast? == some 46 && endsNameInPoint separate parts)

/-- The pattern matches a path; stars reach across slashes. -/
def isMatch (g : Glob) (p : Path) : Bool :=
  partsMatch false g.parts p.octets

end Glob

end PlaybookPolicy
