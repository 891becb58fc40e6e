import PlaybookPolicy.Yaml.Token.Scalar

/-!
# Cutting a YAML text into tokens

Block structure comes from columns: a token to the right of the current block opens a block, a
token to the left closes blocks. A mapping key is recognised only at the colon behind it, so the
lexer remembers, for each flow level, the place where a key may have begun, and puts the key token
in there when the colon appears.

## Main definitions

* `KeyPlace` — a place where a key may have begun.
* `Lexer` — the state between two tokens.
* `Lexer.step` — reads one token.
* `Token.ofText?` — the tokens of a text.
-/

namespace PlaybookPolicy.Yaml

/-- A place where a simple key may have begun. -/
structure KeyPlace where
  /-- The number of tokens before the place. -/
  tokens : Nat
  /-- The place must turn out to be a key, because a block entry is due there. -/
  required : Bool
  /-- The number of characters before the place. -/
  index : Nat
  /-- The line of the place. -/
  line : Nat
  /-- The column of the place. -/
  column : Nat

/-- The state of the lexer between two tokens. -/
structure Lexer where
  /-- The text still to be read. -/
  source : Source
  /-- The tokens read so far. -/
  tokens : Array Token := #[]
  /-- The columns of the open block collections, innermost first. -/
  blocks : List Nat := []
  /-- The possible key of each flow level, innermost first, the block level last. -/
  keys : List (Option KeyPlace) := [none]
  /-- A simple key may begin here. -/
  keyAllowed : Bool := true

namespace Lexer

/-- The number of open flow collections. -/
def flowDepth (x : Lexer) : Nat :=
  x.keys.length - 1

/-- The lexer is inside a flow collection. -/
def inFlow (x : Lexer) : Bool :=
  x.flowDepth > 0

/-- The column of the innermost block collection. -/
def indent? (x : Lexer) : Option Nat :=
  x.blocks.head?

/-- Adds a token. -/
def push (x : Lexer) (t : Token) : Lexer :=
  { x with tokens := x.tokens.push t }

/-- A key is limited to one line and to 1024 characters: possible keys that the text has left
behind are dropped, and a required one among them is a fault. -/
def dropStaleKeys (x : Lexer) : Option Lexer :=
  let isStale (k : KeyPlace) : Bool :=
    k.line < x.source.line || k.index + 1024 < x.source.index
  if x.keys.any (fun k => k.any fun k => isStale k && k.required) then none
  else some { x with keys := x.keys.map fun k => k.filter fun k => !isStale k }

/-- Gives up the possible key of the current flow level; a required one is a fault. -/
def dropKey (x : Lexer) : Option Lexer :=
  match x.keys with
  | some k :: outer => if k.required then none else some { x with keys := none :: outer }
  | _ => some x

/-- Remembers the current place as a possible key, where one may begin. -/
def markKey (x : Lexer) : Option Lexer :=
  if x.keyAllowed then
    let place : KeyPlace :=
      { tokens := x.tokens.size
        required := !x.inFlow && x.indent? == some x.source.column
        index := x.source.index
        line := x.source.line
        column := x.source.column }
    (x.dropKey).map fun x => { x with keys := some place :: x.keys.drop 1 }
  else some x

/-- Opens a block collection at the column, unless one is open there or further right. Its first
token goes before the tokens from number `place` on. -/
def openBlock (x : Lexer) (column : Nat) (place : Nat) (t : Token) : Lexer :=
  if x.inFlow || x.indent?.any (column ≤ ·) then x
  else { x with blocks := column :: x.blocks, tokens := x.tokens.insertIdxIfInBounds place t }

/-- Closes the block collections to the right of the column, all of them if there is none. -/
def closeBlocks (x : Lexer) (column : Option Nat) : Lexer :=
  if x.inFlow then x
  else
    let closed := x.blocks.takeWhile fun b => column.all (· < b)
    { x with
      blocks := x.blocks.drop closed.length
      tokens := closed.foldl (fun ts _ => ts.push .blockEnd) x.tokens }

/-- Skips blanks, comments and line breaks before a token. A tab is no blank where a key may
begin. -/
def skipToToken : Nat → Lexer → Lexer
  | 0, x => x
  | fuel + 1, x =>
    let isBlank (c : Char) : Bool := c == ' ' || ((x.inFlow || !x.keyAllowed) && c == '\t')
    let s := x.source.dropWhile isBlank
    let s := if s.startsWith '#' then s.dropWhile (fun c => !isBreak c) else s
    if s.atBreak then
      skipToToken fuel { x with source := s.skipBreak, keyAllowed := x.keyAllowed || !x.inFlow }
    else
      { x with source := s }

/-! ### Directives, anchors and tags -/

/-- A tag handle: `!`, `!!` or `!name!`. A lone `!name` is a handle only to be split otherwise. -/
def scanHandle (s : Source) : Option (List Char × Source) :=
  if s.startsWith '!' then
    let (name, s) := s.skip.takeWhile isNameChar
    if s.startsWith '!' then some ('!' :: (name ++ ['!']), s.skip) else some ('!' :: name, s)
  else none

/-- The character may stand in a tag without an escape. Commas and brackets are allowed only
between angle brackets. -/
def isTagChar (verbatim : Bool) (c : Char) : Bool :=
  isNameChar c || ";/?:@&=+$.!~*'()".toList.contains c || (verbatim && ",[]".toList.contains c)

/-- The octets that percent escapes write, one character's worth. -/
def scanTagEscape (l : List Char) : Option (Char × Nat) :=
  let octet? (l : List Char) : Option Nat :=
    match l with
    | '%' :: a :: b :: _ => natOfDigits? 16 [a, b]
    | _ => none
  match octet? l with
  | none => none
  | some a =>
    if a < 0x80 then some (Char.ofNat a, 3)
    else
      let lead? : Option (Nat × Nat) :=
        if 0xC0 ≤ a ∧ a < 0xE0 then some (a - 0xC0, 1)
        else if 0xE0 ≤ a ∧ a < 0xF0 then some (a - 0xE0, 2)
        else if 0xF0 ≤ a ∧ a < 0xF8 then some (a - 0xF0, 3)
        else none
      match lead? with
      | none => none
      | some (bits, owed) =>
        let tails := (List.range owed).mapM fun i => (octet? (l.drop (3 * (i + 1)))).filter fun b =>
          0x80 ≤ b && b < 0xC0
        tails.map fun tails =>
          (Char.ofNat (tails.foldl (fun n b => n * 64 + (b - 0x80)) bits), 3 * (owed + 1))

/-- The characters of a tag up to the first that cannot stand in one. -/
def scanTagText (verbatim : Bool) : Nat → List Char → Source → Option (List Char × Source)
  | 0, text, s => some (text.reverse, s)
  | fuel + 1, text, s =>
    match s.peek? with
    | none => some (text.reverse, s)
    | some c =>
      if c == '%' then
        match scanTagEscape s.rest with
        | none => none
        | some (d, width) => scanTagText verbatim fuel (d :: text) (s.skipN width)
      else if isTagChar verbatim c then scanTagText verbatim fuel (c :: text) s.skip
      else some (text.reverse, s)

/-- The text of a tag or of a prefix that stands for one; it is not empty. -/
def scanTagUri (verbatim : Bool) (s : Source) : Option (List Char × Source) :=
  (scanTagText verbatim (s.size + 1) [] s).filter fun (text, _) => !text.isEmpty

/-- A tag: verbatim between angle brackets, or a handle and the text behind it. The tag that is
only a mark has no handle. -/
def scanTag (s : Source) : Option (Token × Source) :=
  let scanned? : Option (List Char × List Char × Source) :=
    if s.skip.startsWith '<' then
      match scanTagUri true s.skip.skip with
      | some (uri, s) => if s.startsWith '>' then some ([], uri, s.skip) else none
      | none => none
    else
      match scanHandle s with
      | none => none
      | some (handle, after) =>
        if handle.length > 1 && handle.getLast? == some '!' then
          (scanTagUri false after).map fun (suffix, s) => (handle, suffix, s)
        else
          match scanTagText false (after.size + 1) [] after with
          | none => none
          | some (more, s) =>
            let suffix := handle.drop 1 ++ more
            if suffix.isEmpty then some ([], ['!'], s) else some (['!'], suffix, s)
  scanned?.map fun (handle, suffix, s) =>
    (.tag (String.ofList handle) (String.ofList suffix), s)

/-- The decimal number of a version, at most nine digits long. -/
def scanVersionNumber (s : Source) : Option (Nat × Source) :=
  let (digits, s) := s.takeWhile Char.isDigit
  if digits.length > 9 then none else (natOfDigits? 10 digits).map fun n => (n, s)

/-- A directive line, from its percent sign to its end. -/
def scanDirective (s : Source) : Option (Token × Source) :=
  let (name, s) := s.skip.takeWhile isNameChar
  let scanned? : Option (Token × Source) :=
    if name.isEmpty || !endsWord s.rest then none
    else if name == "YAML".toList then
      match scanVersionNumber (s.dropWhile isGap) with
      | none => none
      | some (major, s) =>
        if s.startsWith '.' then
          (scanVersionNumber s.skip).map fun (minor, s) => (.version major minor, s)
        else none
    else if name == "TAG".toList then
      match scanHandle (s.dropWhile isGap) with
      | none => none
      | some (handle, s) =>
        if handle.length > 1 && handle.getLast? != some '!' then none
        else if !s.rest.head?.any isGap then none
        else
          match scanTagUri true (s.dropWhile isGap) with
          | none => none
          | some (lead, s) =>
            if endsWord s.rest then
              some (.tagShorthand (String.ofList handle) (String.ofList lead), s)
            else none
    else none
  match scanned? with
  | none => none
  | some (t, s) =>
    let s := s.skipComment
    if s.atLineEnd then some (t, s.skipBreak) else none

/-- The name of an anchor or alias, behind its mark. -/
def scanAnchorName (s : Source) : Option (String × Source) :=
  let (name, s) := s.skip.takeWhile isNameChar
  let ended := endsWord s.rest || s.peek?.any fun c => "?:,]\x7d%@`".toList.contains c
  if name.isEmpty || !ended then none else some (String.ofList name, s)

/-! ### One token -/

/-- Adds a token that was read up to `s`. -/
def advance (x : Lexer) (t : Token) (s : Source) : Lexer :=
  { x.push t with source := s }

/-- A token of the document level closes all blocks. -/
def documentToken (x : Lexer) (t : Token) (s : Source) : Option Lexer :=
  ((x.closeBlocks none).dropKey).map fun x => { x.advance t s with keyAllowed := false }

/-- A scalar, anchor, alias or tag: a key may have begun there. -/
def nodeToken (x : Lexer) (scanned : Option (Token × Source)) : Option Lexer :=
  match x.markKey, scanned with
  | some x, some (t, s) => some { x.advance t s with keyAllowed := false }
  | _, _ => none

/-- An opening bracket or brace. -/
def flowStart (x : Lexer) (t : Token) : Option Lexer :=
  (x.markKey).map fun x =>
    { x.advance t x.source.skip with keys := none :: x.keys, keyAllowed := true }

/-- A closing bracket or brace. -/
def flowEnd (x : Lexer) (t : Token) : Option Lexer :=
  (x.dropKey).map fun x =>
    { x.advance t x.source.skip with
      keys := if x.inFlow then x.keys.drop 1 else x.keys
      keyAllowed := false }

/-- A dash, or a question mark, that opens an entry of a block collection. -/
def entryToken (x : Lexer) (opening t : Token) (keyAllowed : Bool) : Option Lexer :=
  if !x.inFlow && !x.keyAllowed then none
  else
    let x := x.openBlock x.source.column x.tokens.size opening
    (x.dropKey).map fun x => { x.advance t x.source.skip with keyAllowed }

/-- A colon. The possible key before it becomes a key. -/
def valueToken (x : Lexer) : Option Lexer :=
  match x.keys with
  | some k :: outer =>
    let x := { x with keys := none :: outer, tokens := x.tokens.insertIdxIfInBounds k.tokens .key }
    let x := x.openBlock k.column k.tokens .blockMappingStart
    some { x.advance .value x.source.skip with keyAllowed := false }
  | _ =>
    if !x.inFlow && !x.keyAllowed then none
    else
      let x := x.openBlock x.source.column x.tokens.size .blockMappingStart
      some { x.advance .value x.source.skip with keyAllowed := !x.inFlow }

/-- A block scalar. -/
def blockScalar (x : Lexer) (folded : Bool) : Option Lexer :=
  match x.dropKey, scanBlock folded x.indent? x.source with
  | some x, some (text, s) => some { x.advance (.scalar false text) s with keyAllowed := true }
  | _, _ => none

/-- A plain scalar. A line break behind it lets a key begin. -/
def plainScalar (x : Lexer) : Option Lexer :=
  let indent := match x.indent? with
    | some n => n + 1
    | none => 0
  match x.markKey, scanPlain x.inFlow indent x.source with
  | some x, some (text, broken, s) => some { x.advance (.scalar true text) s with keyAllowed := broken }
  | _, _ => none

/-- The character, before the given text, begins a plain scalar. -/
def startsPlain (inFlow : Bool) (c : Char) (after : List Char) : Bool :=
  !("\t -?:,[]\x7b\x7d#&*!|>'\"%@`".toList.contains c) || (c == '-' && !after.head?.any isGap) ||
    (!inFlow && (c == '?' || c == ':') && !endsWord after)

/-- Reads the token that the text begins with. The text begins with no blank. -/
def scanToken (x : Lexer) (c : Char) (after : List Char) : Option Lexer :=
  let s := x.source
  if s.column == 0 && c == '%' then
    match scanDirective s with
    | some (t, s) => x.documentToken t s
    | none => none
  else if s.column == 0 && isDocumentMark '-' s.rest then x.documentToken .documentStart (s.skipN 3)
  else if s.column == 0 && isDocumentMark '.' s.rest then x.documentToken .documentEnd (s.skipN 3)
  else if c == '[' then x.flowStart .flowSequenceStart
  else if c == '{' then x.flowStart .flowMappingStart
  else if c == ']' then x.flowEnd .flowSequenceEnd
  else if c == '}' then x.flowEnd .flowMappingEnd
  else if c == ',' then
    (x.dropKey).map fun x => { x.advance .flowEntry s.skip with keyAllowed := true }
  else if c == '-' && endsWord after then x.entryToken .blockSequenceStart .blockEntry true
  else if c == '?' && (x.inFlow || endsWord after) then
    x.entryToken .blockMappingStart .key (!x.inFlow)
  else if c == ':' && (x.inFlow || endsWord after) then x.valueToken
  else if c == '*' then x.nodeToken ((scanAnchorName s).map fun (n, s) => (.alias n, s))
  else if c == '&' then x.nodeToken ((scanAnchorName s).map fun (n, s) => (.anchor n, s))
  else if c == '!' then
    x.nodeToken ((scanTag s).filter fun (_, s) =>
      endsWord s.rest || (x.inFlow && s.startsWith ','))
  else if c == '|' && !x.inFlow then x.blockScalar false
  else if c == '>' && !x.inFlow then x.blockScalar true
  else if c == '\'' then
    x.nodeToken ((scanQuoted singleStep s).map fun (t, s) => (.scalar false t, s))
  else if c == '"' then
    x.nodeToken ((scanQuoted doubleStep s).map fun (t, s) => (.scalar false t, s))
  else if startsPlain x.inFlow c after then x.plainScalar
  else none

/-- What a step of the lexer comes to. -/
inductive Step where
  /-- Another token was read. -/
  | more (x : Lexer)
  /-- The text has ended. -/
  | done (x : Lexer)
  /-- The text is no YAML. -/
  | bad

/-- Skips to the next token, closes the blocks that end before it, and reads it. -/
def step (x : Lexer) : Step :=
  match (x.skipToToken (x.source.size + 1)).dropStaleKeys with
  | none => .bad
  | some x =>
    let x := x.closeBlocks (some x.source.column)
    match x.source.rest with
    | [] =>
      match (x.closeBlocks none).dropKey with
      | some x => .done x
      | none => .bad
    | c :: after =>
      match x.scanToken c after with
      | some x => .more x
      | none => .bad

/-- Runs the lexer to the end of the text. Each step reads at least a character. -/
def run : Nat → Lexer → Option Lexer
  | 0, _ => none
  | fuel + 1, x =>
    match x.step with
    | .more x => run fuel x
    | .done x => some x
    | .bad => none

end Lexer

/-- The character that may open a text to mark its encoding. -/
def byteOrderMark : Char :=
  Char.ofNat 0xFEFF

/-- The tokens of a text, unless it holds a forbidden character or cannot be cut into tokens. One
mark of the encoding before the text is dropped, and a second one is passed over. -/
def Token.ofText? (l : List Char) : Option (List Token) :=
  let l := if l.head? == some byteOrderMark then l.drop 1 else l
  if l.all isAllowed then
    let source : Source := { rest := l, size := l.length }
    let source := if source.startsWith byteOrderMark then source.skip else source
    (Lexer.run (l.length + 2) { source }).map fun x => x.tokens.toList
  else none

end PlaybookPolicy.Yaml
