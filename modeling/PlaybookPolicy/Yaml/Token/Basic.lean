/-!
# YAML tokens and the text they are cut from

## Main definitions

* `Yaml.Token` — the tokens of a YAML text.
* `Yaml.Source` — the text still to be read and the place it starts at.
* `isBreak`, `isGap`, `endsWord` — line breaks, spaces and tabs, and what ends a word.
* `breakText` — how a line break is kept in a scalar.
-/

namespace PlaybookPolicy.Yaml

/-- The tokens of a YAML text. The end of the text is the end of the token list. -/
inductive Token where
  /-- A `%YAML` directive. -/
  | version (major minor : Nat)
  /-- A `%TAG` directive. -/
  | tagShorthand (handle lead : String)
  /-- The mark `---`. -/
  | documentStart
  /-- The mark `...`. -/
  | documentEnd
  /-- A block sequence begins. -/
  | blockSequenceStart
  /-- A block mapping begins. -/
  | blockMappingStart
  /-- A block collection ends. -/
  | blockEnd
  /-- `[` -/
  | flowSequenceStart
  /-- `]` -/
  | flowSequenceEnd
  /-- An opening brace. -/
  | flowMappingStart
  /-- A closing brace. -/
  | flowMappingEnd
  /-- A dash that begins a sequence item. -/
  | blockEntry
  /-- A comma between flow items. -/
  | flowEntry
  /-- A mapping key follows. -/
  | key
  /-- A mapping value follows. -/
  | value
  /-- A reference to an anchor. -/
  | alias (name : String)
  /-- An anchor. -/
  | anchor (name : String)
  /-- A tag, split into its handle and the rest. -/
  | tag (handle suffix : String)
  /-- A scalar, and whether it is plain (neither quoted nor a block). -/
  | scalar (plain : Bool) (text : String)
  deriving DecidableEq, Repr

/-- The text still to be read, with the number of characters and line breaks before it and the
column it starts at. -/
structure Source where
  /-- The text still to be read. -/
  rest : List Char
  /-- The length of the whole text, which bounds every scan. -/
  size : Nat
  /-- The number of characters before it. -/
  index : Nat := 0
  /-- The number of line breaks before it. -/
  line : Nat := 0
  /-- The number of characters before it on its line. -/
  column : Nat := 0

/-- The character ends a line: carriage return, line feed, next line, or one of the two Unicode
separators. -/
def isBreak (c : Char) : Bool :=
  c == '\n' || c == '\r' || c.toNat == 0x85 || c.toNat == 0x2028 || c.toNat == 0x2029

/-- The character is a space or a tab. -/
def isGap (c : Char) : Bool :=
  c == ' ' || c == '\t'

/-- No word continues here: a space, a tab, a line break or the end of the text. -/
def endsWord : List Char → Bool
  | [] => true
  | c :: _ => isGap c || isBreak c

/-- The character may stand in a directive, handle or anchor name. -/
def isNameChar (c : Char) : Bool :=
  c.isAlphanum || c == '_' || c == '-'

/-- How a line break is kept in a scalar: the Unicode separators stay, all others become a line
feed. -/
def breakText (c : Char) : Char :=
  if c.toNat == 0x2028 || c.toNat == 0x2029 then c else '\n'

/-- The character may stand in a YAML text. -/
def isAllowed (c : Char) : Bool :=
  let n := c.toNat
  n == 9 || n == 10 || n == 13 || (0x20 ≤ n && n ≤ 0x7E) || n == 0x85 ||
    (0xA0 ≤ n && n ≤ 0xFFFD) || 0x10000 ≤ n

/-- The text begins with a document mark made of three times the given character. -/
def isDocumentMark (c : Char) (l : List Char) : Bool :=
  match l with
  | a :: b :: d :: r => a == c && b == c && d == c && endsWord r
  | _ => false

namespace Source

/-- One character further on the same line. -/
def skip (s : Source) : Source :=
  { s with rest := s.rest.drop 1, index := s.index + 1, column := s.column + 1 }

/-- Several characters further on the same line. -/
def skipN (s : Source) (n : Nat) : Source :=
  { s with rest := s.rest.drop n, index := s.index + n, column := s.column + n }

/-- Past the line break that the text begins with, a carriage return with its line feed being one
break. Without a break nothing moves. -/
def skipBreak (s : Source) : Source :=
  match s.rest with
  | '\r' :: '\n' :: r => { s with rest := r, index := s.index + 2, line := s.line + 1, column := 0 }
  | c :: r =>
    if isBreak c then { s with rest := r, index := s.index + 1, line := s.line + 1, column := 0 }
    else s
  | [] => s

/-- The longest lead of characters with the property, and the text after it. The property holds of
no line break. -/
def takeWhile (p : Char → Bool) (s : Source) : List Char × Source :=
  let lead := s.rest.takeWhile p
  (lead, s.skipN lead.length)

/-- The text after the longest lead of characters with the property. -/
def dropWhile (p : Char → Bool) (s : Source) : Source :=
  (s.takeWhile p).2

/-- The first character. -/
def peek? (s : Source) : Option Char :=
  s.rest.head?

/-- The text begins with the character. -/
def startsWith (s : Source) (c : Char) : Bool :=
  s.rest.head? == some c

/-- Nothing is left. -/
def atEnd (s : Source) : Bool :=
  s.rest.isEmpty

/-- A line break comes next. -/
def atBreak (s : Source) : Bool :=
  s.rest.head?.any isBreak

/-- A line break or the end of the text comes next. -/
def atLineEnd (s : Source) : Bool :=
  s.atEnd || s.atBreak

/-- A document mark stands here: three dashes or three points at the start of a line. -/
def atDocumentMark (s : Source) : Bool :=
  s.column == 0 && (isDocumentMark '-' s.rest || isDocumentMark '.' s.rest)

/-- Past the spaces and tabs and, if there is one, the comment behind them. -/
def skipComment (s : Source) : Source :=
  let s := s.dropWhile isGap
  if s.startsWith '#' then s.dropWhile (fun c => !isBreak c) else s

end Source

end PlaybookPolicy.Yaml
