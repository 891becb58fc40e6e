import PlaybookPolicy.Text.Blank
import PlaybookPolicy.Yaml.Scalar
import PlaybookPolicy.Yaml.Token.Basic

/-!
# Writing YAML

Values are written in block style with two columns of indentation. A sequence under a key keeps
the column of the key, a collection that is empty is written with its brackets, and a key that is
a collection, long or of several lines gets a question mark. Texts are plain where a reader would
read them back, literal blocks when they have several lines, and quoted otherwise.

## Main definitions

* `ScalarTraits` — what decides how a text can be written.
* `ScalarStyle.choose` — how it is written.
* `Page` — the text written so far and where its end stands.
* `Yaml.write?` — the text of a value; none for the few shapes that cannot be written.
-/

namespace PlaybookPolicy.Yaml

/-! ### What a text looks like -/

/-- The character can be written as it is. -/
def isPrintable (c : Char) : Bool :=
  let n := c.toNat
  n == 10 || (0x20 ≤ n && n ≤ 0x7E) || (0xA0 ≤ n && n ≤ 0xFFFD && n != 0xFEFF) || 0x10000 ≤ n

/-- The traits of a text that decide how it can be written. -/
structure ScalarTraits where
  /-- The text has line breaks. -/
  multiline : Bool
  /-- The text can be written without quotes. -/
  plainAllowed : Bool
  /-- The text can be written between single quotes. -/
  singleAllowed : Bool
  /-- The text can be written as a block. -/
  blockAllowed : Bool
  deriving DecidableEq, Repr

/-- A character with its neighbours: the one before, if any, itself, and those after. -/
def neighbourhoods : Option Char → List Char → List (Option Char × Char × List Char)
  | _, [] => []
  | before, c :: l => (before, c, l) :: neighbourhoods (some c) l

/-- The character at this place would be taken for a mark of the block syntax. -/
def isBlockMark (before : Option Char) (c : Char) (after : List Char) : Bool :=
  match before with
  | none =>
    "#,[]\x7b\x7d&*!|>'\"%@`".toList.contains c || ("?:-".toList.contains c && endsWord after)
  | some b => (c == ':' && endsWord after) || (c == '#' && (isGap b || isBreak b))

/-- The traits of a text. -/
def ScalarTraits.of (s : String) : ScalarTraits :=
  let l := s.toList
  if l.isEmpty then ⟨false, true, true, false⟩
  else
    let places := neighbourhoods none l
    let special := !l.all isPrintable
    let multiline := l.any isBreak
    let marks := places.any (fun p => isBlockMark p.1 p.2.1 p.2.2) ||
      "---".toList.isPrefixOf l || "...".toList.isPrefixOf l
    let breakSpace := places.any fun p => p.2.1 == ' ' && p.1.any isBreak
    let spaceBreak := places.any fun p => isBreak p.2.1 && p.1 == some ' '
    let isEdge (c : Option Char) : Bool := c.any fun c => c == ' ' || isBreak c
    let trailingSpace := l.getLast? == some ' '
    { multiline
      plainAllowed :=
        !(isEdge l.head? || isEdge l.getLast? || breakSpace || spaceBreak || special || multiline ||
          marks)
      singleAllowed := !(breakSpace || spaceBreak || special)
      blockAllowed := !(trailingSpace || spaceBreak || special) }

/-- How a scalar is written. -/
inductive ScalarStyle where
  /-- Without quotes. -/
  | plain
  /-- Between single quotes. -/
  | single
  /-- Between double quotes, with escapes. -/
  | double
  /-- As a block that keeps its line breaks. -/
  | literal
  deriving DecidableEq, Repr

/-- How a text is written: as a block if it has line feeds, plain if it reads back as a text, else
between the simplest quotes that can hold it. -/
def ScalarStyle.choose (s : String) (simpleKey : Bool) : ScalarStyle :=
  let traits := ScalarTraits.of s
  let quoted := if traits.singleAllowed then ScalarStyle.single else .double
  if simpleKey && traits.multiline then .double
  else if s.toList.contains '\n' then
    if traits.blockAllowed && !simpleKey then .literal else .double
  else if isAmbiguous s then quoted
  else if traits.plainAllowed && !(s.isEmpty && simpleKey) then .plain
  else quoted

/-! ### The page -/

/-- The text written so far. -/
structure Page where
  /-- The characters, last one first. -/
  text : List Char := []
  /-- The column of the end. -/
  column : Nat := 0
  /-- The end needs no blank before a word. -/
  spaced : Bool := true
  /-- Nothing but indentation and entry marks stand on the line. -/
  indenting : Bool := true

namespace Page

/-- Writes characters of one line. -/
def put (p : Page) (l : List Char) : Page :=
  { p with text := l.reverse ++ p.text, column := p.column + l.length }

/-- Writes a character that ends the line. -/
def endLine (p : Page) (c : Char) : Page :=
  { p with text := c :: p.text, column := 0 }

/-- Goes to the indentation, on a new line unless the end stands before it. -/
def indentTo (p : Page) (indent : Nat) : Page :=
  let p :=
    if !p.indenting || p.column > indent || (p.column == indent && !p.spaced) then p.endLine '\n'
    else p
  { p.put (List.replicate (indent - p.column) ' ') with spaced := true, indenting := true }

/-- Writes a blank where one is missing before a word. -/
def space (p : Page) : Page :=
  if p.spaced then p else p.put [' ']

/-- Writes characters right behind the end. -/
def glue (p : Page) (l : List Char) : Page :=
  { p.put l with spaced := false, indenting := false }

/-- Writes a word. -/
def word (p : Page) (l : List Char) : Page :=
  p.space.glue l

/-- Writes the mark of an entry, which leaves the line open to further marks. -/
def entry (p : Page) (c : Char) : Page :=
  { p.space.put [c] with spaced := false }

/-- The escape of a character between double quotes. -/
def escape (c : Char) : List Char :=
  let hex (width : Nat) : List Char :=
    let digits := (Nat.toDigits 16 c.toNat).map Char.toUpper
    List.replicate (width - digits.length) '0' ++ digits
  match c.toNat with
  | 0x00 => ['\\', '0']
  | 0x07 => ['\\', 'a']
  | 0x08 => ['\\', 'b']
  | 0x09 => ['\\', 't']
  | 0x0A => ['\\', 'n']
  | 0x0B => ['\\', 'v']
  | 0x0C => ['\\', 'f']
  | 0x0D => ['\\', 'r']
  | 0x1B => ['\\', 'e']
  | 0x22 => ['\\', '"']
  | 0x5C => ['\\', '\\']
  | 0x85 => ['\\', 'N']
  | 0xA0 => ['\\', '_']
  | 0x2028 => ['\\', 'L']
  | 0x2029 => ['\\', 'P']
  | n =>
    if n ≤ 0xFF then '\\' :: 'x' :: hex 2
    else if n ≤ 0xFFFF then '\\' :: 'u' :: hex 4
    else '\\' :: 'U' :: hex 8

/-- Writes a text between double quotes. -/
def double (p : Page) (l : List Char) : Page :=
  let body := l.flatMap fun c =>
    if !isPrintable c || isBreak c || c == '"' || c == '\\' then escape c else [c]
  ((p.word ['"']).put body).glue ['"']

/-- The characters of a text on several lines. Each line begins at the indentation. -/
def lines (indent : Nat) (form : Char → List Char) : Bool → List Char → Page → Page
  | _, [], p => p
  | broken, c :: l, p =>
    if isBreak c then lines indent form true l { p.endLine c with indenting := true }
    else
      let p := if broken then p.indentTo indent else p
      lines indent form false l { p.put (form c) with indenting := false }

/-- Writes a text between single quotes. -/
def single (p : Page) (indent : Nat) (l : List Char) : Page :=
  let p := lines indent (fun c => if c == '\'' then ['\'', '\''] else [c]) false l (p.word ['\''])
  let p := if l.getLast?.any isBreak then p.indentTo indent else p
  p.glue ['\'']

/-- The marks behind the bar of a block: the width of the indentation if the text begins with a
blank or a break, and what becomes of the breaks at its end. -/
def blockHints (l : List Char) : List Char :=
  let width := if l.head?.any fun c => c == ' ' || isBreak c then ['2'] else []
  let chomp :=
    match l.reverse with
    | [] => ['-']
    | [c] => if isBreak c then ['+'] else ['-']
    | c :: d :: _ => if !isBreak c then ['-'] else if isBreak d then ['+'] else []
  width ++ chomp

/-- Writes a text as a literal block. -/
def literal (p : Page) (indent : Nat) (l : List Char) : Page :=
  let p := (p.word ('|' :: blockHints l)).endLine '\n'
  lines indent (fun c => [c]) true l { p with indenting := true, spaced := true }

/-- Writes a scalar. -/
def scalar (p : Page) (indent : Nat) (style : ScalarStyle) (s : String) : Page :=
  match style with
  | .plain =>
    if s.isEmpty then p.glue [] else p.word s.toList
  | .single => p.single indent s.toList
  | .double => p.double s.toList
  | .literal => p.literal indent s.toList

/-- The characters of a tag: those outside the set that tags may hold are written as percent
escapes of their octets. -/
def tagText (name : List Char) : List Char :=
  name.flatMap fun c =>
    if isNameChar c || ";/?:@&=+$,.~*'()[]".toList.contains c then [c]
    else (String.utf8EncodeChar c).flatMap fun b =>
      let digits := (Nat.toDigits 16 b.toNat).map Char.toUpper
      '%' :: (List.replicate (2 - digits.length) '0' ++ digits)

/-- The name of a tag behind the mark it is written with: empty for the lone mark. -/
def tagSuffix (name : String) : List Char :=
  match (tagName name).toList with
  | '!' :: l => l
  | l => l

/-- Writes a tag, if there is one: behind the mark of local tags, or between angle brackets if it is
nothing but the mark. -/
def tag (p : Page) : Option String → Page
  | none => p
  | some name =>
    let suffix := tagSuffix name
    if suffix.isEmpty then p.word ("!<".toList ++ tagText ['!'] ++ ['>'])
    else p.word ('!' :: tagText suffix)

end Page

/-! ### Values -/

/-- The indentation inside a collection. The outermost one has none. -/
def deeper : Option Nat → Nat
  | none => 0
  | some n => n + 2

/-- The text of a scalar value and how it is written. -/
def scalarForm? (simpleKey : Bool) : Value → Option (ScalarStyle × String)
  | .null => some (.plain, "null")
  | .bool b => some (.plain, if b then "true" else "false")
  | .int n => some (.plain, intText n)
  | .float x => some (.plain, floatText.write x)
  | .text s => some (ScalarStyle.choose s simpleKey, s)
  | _ => none

/-- The length of what the value takes as a key on one line, if it fits on one. -/
def keyLength? : Value → Option Nat
  | .null => some 4
  | .bool b => some (if b then 4 else 5)
  | .int n => some (intText n).utf8ByteSize
  | .float x => some (floatText.write x).utf8ByteSize
  | .text s => if s.toList.any isBreak then none else some s.utf8ByteSize
  | .sequence [] => some 0
  | .mapping [] => some 0
  | .sequence (_ :: _) => none
  | .mapping (_ :: _) => none
  | .tagged tag v => (keyLength? v).map fun n => n + 1 + (String.ofList (Page.tagSuffix tag)).utf8ByteSize

/-- The value can be a key in front of a colon, without a question mark. -/
def isSimpleKey (v : Value) : Bool :=
  (keyLength? v).any (· ≤ 128)

mutual

/-- Writes a value. `underKey` holds for the keys and values of a mapping, `simpleKey` for keys on
one line, and the tag is the one around the value. -/
def writeValue (indent : Option Nat) (underKey simpleKey : Bool) :
    Option String → Value → Page → Page
  | _, .tagged name v, p => writeValue indent underKey simpleKey (some name) v p
  | tag, .sequence [], p => (p.tag tag).word ['[', ']']
  | tag, .sequence (v :: vs), p =>
    let p := p.tag tag
    let inner := if underKey && !p.indenting then indent.getD 0 else deeper indent
    writeItems inner (v :: vs) p
  | tag, .mapping [], p => (p.tag tag).word ['{', '}']
  | tag, .mapping (e :: es), p => writeEntries (deeper indent) (e :: es) (p.tag tag)
  | tag, .null, p => writeScalar indent simpleKey tag .null p
  | tag, .bool b, p => writeScalar indent simpleKey tag (.bool b) p
  | tag, .int n, p => writeScalar indent simpleKey tag (.int n) p
  | tag, .float x, p => writeScalar indent simpleKey tag (.float x) p
  | tag, .text s, p => writeScalar indent simpleKey tag (.text s) p
where
  /-- Writes a scalar value behind its tag. -/
  writeScalar (indent : Option Nat) (simpleKey : Bool) (tag : Option String) (v : Value)
      (p : Page) : Page :=
    match scalarForm? simpleKey v with
    | some (style, s) => (p.tag tag).scalar (indent.getD 0 + 2) style s
    | none => p

/-- Writes the items of a sequence, each behind a dash. -/
def writeItems (indent : Nat) : List Value → Page → Page
  | [], p => p
  | v :: vs, p =>
    let p := (p.indentTo indent).entry '-'
    writeItems indent vs (writeValue (some indent) false false none v p)

/-- Writes the entries of a mapping. -/
def writeEntries (indent : Nat) : List (Value × Value) → Page → Page
  | [], p => p
  | (k, v) :: es, p =>
    let p := p.indentTo indent
    let p :=
      if isSimpleKey k then
        (writeValue (some indent) true true none k p).glue [':']
      else
        let p := writeValue (some indent) true false none k (p.entry '?')
        (p.indentTo indent).entry ':'
    writeEntries indent es (writeValue (some indent) true false none v p)

end

/-- A mapping of one entry outside a tag cannot have a tagged key or a key that is a mapping of
one entry: such a key is indistinguishable from a tag. -/
def hasTagLikeKey (underTag : Bool) : Mapping → Bool
  | [(.tagged _ _, _)] => !underTag
  | [(.mapping [_], _)] => !underTag
  | _ => false

mutual

/-- The value can be written. -/
def isWritable (underTag : Bool) : Value → Bool
  | .sequence items => areWritable items
  | .mapping entries => !hasTagLikeKey underTag entries && areWritableEntries entries
  | .tagged _ v => !underTag && isWritable true v
  | _ => true

/-- All values can be written. -/
def areWritable : List Value → Bool
  | [] => true
  | v :: vs => isWritable false v && areWritable vs

/-- All keys and values can be written. -/
def areWritableEntries : List (Value × Value) → Bool
  | [] => true
  | (k, v) :: es => isWritable false k && (isWritable false v && areWritableEntries es)

end

/-- The text of a value as a document, without blanks at either end; none if the value cannot be
written. -/
def write? (v : Value) : Option String :=
  if isWritable false v then
    some (String.ofList (Text.trim (writeValue none false false none v {}).text.reverse))
  else none

end PlaybookPolicy.Yaml
