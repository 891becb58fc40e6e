import PlaybookPolicy.Glob.Basic

/-!
# Reading glob patterns

Two stars stand for directories only where they fill the space between slashes; elsewhere they are
two plain stars. Braces hold branches and may be nested; outside braces a comma stands for itself. A
bracket without its partner is a fault, unless the reader is lenient and lets it stand for itself.

## Main definitions

* `scanClass` — a character class.
* `GlobReader` — the state between two parts.
* `Glob.parse` — the pattern that a text writes.
-/

namespace PlaybookPolicy

/-! ### Classes -/

/-- The ranges of a class up to its closing bracket, the last one first. `ranging` tells that a range
awaits its last character. A closing bracket or a dash that comes first stands for itself, and so
does a dash before the closing bracket. -/
def scanRanges (first ranging : Bool) (ranges : List (Char × Char)) :
    List Char → Except GlobError (List (Char × Char) × List Char)
  | [] => .error .unclosedClass
  | c :: l =>
    if c == ']' && !first then .ok (if ranging then ('-', '-') :: ranges else ranges, l)
    else if c == '-' && !first && !ranging then scanRanges false true ranges l
    else
      match ranging, ranges with
      | true, (low, _) :: outer =>
        if c < low then .error (.invalidRange low c)
        else scanRanges false false ((low, c) :: outer) l
      | _, _ => scanRanges false false ((c, c) :: ranges) l

/-- A class, from behind its opening bracket on. -/
def scanClass (l : List Char) : Except GlobError (GlobPart × List Char) :=
  let (negated, l) := match l with
    | '!' :: r => (true, r)
    | '^' :: r => (true, r)
    | r => (false, r)
  (scanRanges true false [] l).map fun (ranges, r) => (.octetClass negated ranges.reverse, r)

/-! ### Patterns -/

/-- A group of branches whose closing brace has not been read. -/
structure OpenChoice where
  /-- The parts before the group, last one first. -/
  before : List GlobPart
  /-- The finished branches, last one first. -/
  branches : List (List GlobPart)

/-- The state of the reader between two parts. -/
structure GlobReader where
  /-- The open groups, innermost first. -/
  groups : List OpenChoice := []
  /-- The parts of the current branch, last one first. -/
  parts : List GlobPart := []
  /-- The character read last. -/
  last : Option Char := none

namespace GlobReader

/-- Adds a part that ends in the given character. -/
def push (x : GlobReader) (part : GlobPart) (c : Char) : GlobReader :=
  { x with parts := part :: x.parts, last := some c }

/-- Opens a group of branches. -/
def openGroup (x : GlobReader) : GlobReader :=
  { groups := ⟨x.parts, []⟩ :: x.groups, parts := [], last := some '{' }

/-- Ends a branch. -/
def endBranch (x : GlobReader) : GlobReader :=
  match x.groups with
  | [] => x.push (.literal ',') ','
  | g :: outer =>
    { groups := { g with branches := x.parts.reverse :: g.branches } :: outer
      parts := []
      last := some ',' }

/-- Closes a group. -/
def closeGroup (x : GlobReader) : Except GlobError GlobReader :=
  match x.groups with
  | [] => .error .unopenedChoice
  | g :: outer =>
    .ok { groups := outer
          parts := .choice (x.parts.reverse :: g.branches).reverse :: g.before
          last := some '}' }

/-- Two stars that are no more than that. -/
def pushStars (x : GlobReader) : GlobReader :=
  { x with parts := .run :: .run :: x.parts, last := some '*' }

/-- Two stars between a slash and the end of a branch, or between two slashes, take the slash before
them along. Behind other such stars they change nothing. -/
def joinDirectories (x : GlobReader) (part : GlobPart) (c : Char) : GlobReader :=
  match x.parts with
  | .leading :: _ => { x with last := some c }
  | .inside :: _ => { x with last := some c }
  | _ => { x with parts := part :: x.parts.drop 1, last := some c }

/-- Reads two stars, with `l` behind them, and says what is left. -/
def doubleStar (x : GlobReader) (l : List Char) : GlobReader × List Char :=
  if x.parts.isEmpty then
    match l with
    | [] => (x.push .leading '*', [])
    | '/' :: r => (x.push .leading '/', r)
    | l => (x.pushStars, l)
  else
    let inGroup := !x.groups.isEmpty
    let afterEdge := x.last == some '/' || (inGroup && (x.last == some ',' || x.last == some '{'))
    match l with
    | [] => if afterEdge then (x.joinDirectories .inside '*', []) else (x.pushStars, [])
    | c :: r =>
      if !afterEdge then (x.pushStars, c :: r)
      else if inGroup && (c == ',' || c == '}') then (x.joinDirectories .inside '*', c :: r)
      else if c == '/' then (x.joinDirectories .between '/', r)
      else (x.pushStars, c :: r)

/-- Reads a class, from behind its opening bracket on. -/
def classPart (lenient : Bool) (x : GlobReader) (l : List Char) :
    Except GlobError (GlobReader × List Char) :=
  match scanClass l with
  | .ok (part, r) => .ok (x.push part ']', r)
  | .error .unclosedClass =>
    if lenient then .ok (x.push (.literal '[') '[', l) else .error .unclosedClass
  | .error e => .error e

/-- Reads one part of the pattern that begins with `c`. -/
def step (lenient : Bool) (x : GlobReader) (c : Char) (l : List Char) :
    Except GlobError (GlobReader × List Char) :=
  match c with
  | '?' => .ok (x.push .one c, l)
  | '*' =>
    match l with
    | '*' :: r => .ok (x.doubleStar r)
    | l => .ok (x.push .run c, l)
  | '[' => x.classPart lenient l
  | '{' => .ok (x.openGroup, l)
  | '}' => x.closeGroup.map fun x => (x, l)
  | ',' => .ok (x.endBranch, l)
  | '\\' =>
    match l with
    | [] => .error .danglingEscape
    | c :: r => .ok (x.push (.literal c) c, r)
  | c => .ok (x.push (.literal c) c, l)

/-- Reads parts to the end of the pattern. Each takes at least a character. -/
def run (lenient : Bool) : Nat → GlobReader → List Char → Except GlobError GlobReader
  | _, x, [] => .ok x
  | 0, x, _ => .ok x
  | fuel + 1, x, c :: l =>
    match x.step lenient c l with
    | .ok (x, r) => run lenient fuel x r
    | .error e => .error e

end GlobReader

namespace Glob

/-- The parts of a pattern. -/
def parseParts (lenient : Bool) (l : List Char) : Except GlobError (List GlobPart) :=
  match GlobReader.run lenient l.length {} l with
  | .error e => .error e
  | .ok x => if x.groups.isEmpty then .ok x.parts.reverse else .error .unclosedChoice

/-- The pattern that a text writes. -/
def parse (text : String) : Except GlobError Glob :=
  (parseParts false text.toList).map fun parts => { text, parts }

end Glob

end PlaybookPolicy
