import PlaybookPolicy.Decimal.Basic
import PlaybookPolicy.Yaml.Token.Basic

/-!
# Scalars in a YAML text

The three ways to write a scalar: plain, between quotes, and as an indented block. Line breaks
inside plain and quoted scalars fold: one break is a space, and of several the first is dropped.

## Main definitions

* `Gap` — the blanks and breaks between two words of a scalar; `Gap.text` folds them.
* `scanPlain` — a plain scalar.
* `scanSingleQuoted`, `scanDoubleQuoted` — quoted scalars.
* `scanBlock` — a literal or folded block.
-/

namespace PlaybookPolicy.Yaml

/-- What stands between two words of a plain or quoted scalar. -/
structure Gap where
  /-- The spaces and tabs before the first break, last one first. -/
  blanks : List Char := []
  /-- The first line break. -/
  firstBreak : Option Char := none
  /-- The breaks after the first one, last one first. -/
  otherBreaks : List Char := []
  /-- A break has been read, or an escaped one. -/
  broken : Bool := false

namespace Gap

/-- One more space or tab. After a break it is indentation and is dropped. -/
def addBlank (g : Gap) (c : Char) : Gap :=
  if g.broken then g else { g with blanks := c :: g.blanks }

/-- One more line break. -/
def addBreak (g : Gap) (c : Char) : Gap :=
  if g.broken then { g with otherBreaks := breakText c :: g.otherBreaks }
  else { blanks := [], firstBreak := some (breakText c), broken := true }

/-- The characters that the gap stands for. -/
def text (g : Gap) : List Char :=
  if g.broken then
    let others := g.otherBreaks.reverse
    match g.firstBreak with
    | some '\n' => if others.isEmpty then [' '] else others
    | some c => c :: others
    | none => others
  else
    g.blanks.reverse

end Gap

/-! ### Plain scalars -/

/-- A flow bracket or a comma, which end a plain scalar inside a flow collection. -/
def isFlowMark (c : Char) : Bool :=
  c == ',' || c == '[' || c == ']' || c == '{' || c == '}'

/-- The words of a plain scalar, last character first; the gap after the last word; and the text
behind both. `indent` is the least column of a continuation line outside flow collections. -/
structure PlainScan where
  /-- The characters read, last one first. -/
  text : List Char
  /-- The gap after the last word. -/
  gap : Gap
  /-- The text behind the scalar and the gap. -/
  source : Source

/-- Reads words and gaps until the scalar ends. Each round reads a character or a line break. -/
def scanPlainFrom (inFlow : Bool) (indent : Nat) : Nat → PlainScan → Option PlainScan
  | 0, st => some st
  | fuel + 1, st =>
    let s := st.source
    match s.rest with
    | [] => some st
    | c :: after =>
      if isGap c then
        if st.gap.broken && s.column < indent && c == '\t' then none
        else scanPlainFrom inFlow indent fuel { st with gap := st.gap.addBlank c, source := s.skip }
      else if isBreak c then
        scanPlainFrom inFlow indent fuel { st with gap := st.gap.addBreak c, source := s.skipBreak }
      else
        let afterGap := st.gap.broken || !st.gap.blanks.isEmpty
        if afterGap && ((!inFlow && s.column < indent) || s.atDocumentMark || c == '#') then some st
        else if inFlow && c == ':' && after.head?.any (fun d => isFlowMark d || d == '?') then none
        else if (c == ':' && endsWord after) || (inFlow && isFlowMark c) then some st
        else
          scanPlainFrom inFlow indent fuel
            { text := c :: (st.gap.text.reverse ++ st.text), gap := {}, source := s.skip }

/-- A plain scalar: its text, whether a line break follows it, and the text behind. -/
def scanPlain (inFlow : Bool) (indent : Nat) (s : Source) : Option (String × Bool × Source) :=
  (scanPlainFrom inFlow indent (s.size + 1) ⟨[], {}, s⟩).map fun st =>
    (String.ofList st.text.reverse, st.gap.broken, st.source)

/-! ### Quoted scalars -/

/-- The character that a one-letter escape stands for between double quotes. -/
def escapeChar? : Char → Option Char
  | '0' => some (Char.ofNat 0)
  | 'a' => some (Char.ofNat 7)
  | 'b' => some (Char.ofNat 8)
  | 't' => some '\t'
  | '\t' => some '\t'
  | 'n' => some '\n'
  | 'v' => some (Char.ofNat 11)
  | 'f' => some (Char.ofNat 12)
  | 'r' => some '\r'
  | 'e' => some (Char.ofNat 27)
  | ' ' => some ' '
  | '"' => some '"'
  | '/' => some '/'
  | '\\' => some '\\'
  | 'N' => some (Char.ofNat 0x85)
  | '_' => some (Char.ofNat 0xA0)
  | 'L' => some (Char.ofNat 0x2028)
  | 'P' => some (Char.ofNat 0x2029)
  | _ => none

/-- How many hexadecimal digits follow the letter of a numeric escape. -/
def escapeWidth? : Char → Option Nat
  | 'x' => some 2
  | 'u' => some 4
  | 'U' => some 8
  | _ => none

/-- The character with the given code, unless it is a surrogate or beyond the last character. -/
def charOfCode? (n : Nat) : Option Char :=
  if (0xD800 ≤ n ∧ n ≤ 0xDFFF) ∨ n > 0x10FFFF then none else some (Char.ofNat n)

/-- The next character of a quoted scalar. -/
inductive QuotedStep where
  /-- A character, and how many characters of the text write it. -/
  | char (c : Char) (width : Nat)
  /-- A backslash before a line break. -/
  | joinLine
  /-- The closing quote. -/
  | close
  /-- No character can be read. -/
  | bad

/-- Reads one character between single quotes: a doubled quote is a quote. -/
def singleStep : List Char → QuotedStep
  | '\'' :: '\'' :: _ => .char '\'' 2
  | '\'' :: _ => .close
  | c :: _ => .char c 1
  | [] => .bad

/-- Reads one character between double quotes. -/
def doubleStep : List Char → QuotedStep
  | '"' :: _ => .close
  | '\\' :: c :: l =>
    if isBreak c then .joinLine
    else match escapeChar? c, escapeWidth? c with
      | some d, _ => .char d 2
      | none, some width =>
        if l.length < width then .bad
        else match (natOfDigits? 16 (l.take width)).bind charOfCode? with
          | some d => .char d (width + 2)
          | none => .bad
      | none, none => .bad
  | ['\\'] => .bad
  | c :: _ => .char c 1
  | [] => .bad

/-- Reads words and gaps up to the closing quote. `fresh` holds at the start of a word, where a
document mark would end the document. -/
def scanQuotedFrom (step : List Char → QuotedStep) :
    Nat → List Char → Gap → Source → Option (List Char × Source)
  | 0, _, _, _ => none
  | fuel + 1, text, gap, s =>
    match s.rest with
    | [] => none
    | c :: _ =>
      if isGap c then scanQuotedFrom step fuel text (gap.addBlank c) s.skip
      else if isBreak c then scanQuotedFrom step fuel text (gap.addBreak c) s.skipBreak
      else if s.atDocumentMark then none
      else
        let text := gap.text.reverse ++ text
        match step s.rest with
        | .char d width => scanQuotedFrom step fuel (d :: text) {} (s.skipN width)
        | .joinLine => scanQuotedFrom step fuel text { broken := true } s.skip.skipBreak
        | .close => some (text, s.skip)
        | .bad => none

/-- A quoted scalar, from its opening quote on. -/
def scanQuoted (step : List Char → QuotedStep) (s : Source) : Option (String × Source) :=
  (scanQuotedFrom step (s.size + 1) [] {} s.skip).map fun (text, s) =>
    (String.ofList text.reverse, s)

/-! ### Blocks -/

/-- What a block does with the line breaks at its end. -/
inductive Chomp where
  /-- Drop them all. -/
  | strip
  /-- Keep one. -/
  | clip
  /-- Keep them all. -/
  | keep
  deriving DecidableEq, Repr

/-- The marks behind the bar of a block: chomping and indentation, in either order. -/
def scanBlockHeader (s : Source) : Option (Chomp × Option Nat × Source) :=
  let chomp? : Source → Option (Chomp × Source) := fun s =>
    if s.startsWith '+' then some (.keep, s.skip)
    else if s.startsWith '-' then some (.strip, s.skip)
    else none
  let digit? : Source → Option (Nat × Source) := fun s =>
    match s.peek? with
    | some c => if c.isDigit then some (c.toNat - '0'.toNat, s.skip) else none
    | none => none
  match chomp? s with
  | some (chomp, s) =>
    match digit? s with
    | some (0, _) => none
    | some (n, s) => some (chomp, some n, s)
    | none => some (chomp, none, s)
  | none =>
    match digit? s with
    | some (0, _) => none
    | some (n, s) =>
      match chomp? s with
      | some (chomp, s) => some (chomp, some n, s)
      | none => some (.clip, some n, s)
    | none => some (.clip, none, s)

/-- Skips indentation and empty lines before a line of a block, and collects the breaks, last one
first. Without a known indentation all spaces are skipped and the deepest column is found. -/
def scanBlockBreaks (indent : Option Nat) :
    Nat → List Char → Nat → Source → Option (List Char × Nat × Source)
  | 0, breaks, deepest, s => some (breaks, deepest, s)
  | fuel + 1, breaks, deepest, s =>
    match s.rest with
    | ' ' :: _ =>
      if indent.all (s.column < ·) then scanBlockBreaks indent fuel breaks deepest s.skip
      else some (breaks, max deepest s.column, s)
    | c :: _ =>
      if c == '\t' && indent.all (s.column < ·) then none
      else if isBreak c then
        scanBlockBreaks indent fuel (breakText c :: breaks) (max deepest s.column) s.skipBreak
      else some (breaks, max deepest s.column, s)
    | [] => some (breaks, max deepest s.column, s)

/-- The lines of a block. `lead` is the break before the next line and `breaks` those of the empty
lines after it, last one first; `wasBlank` tells that the line before began with a blank. -/
def scanBlockLines (folded : Bool) (indent : Nat) :
    Nat → List Char → Option Char → List Char → Bool → Source →
      Option (List Char × Option Char × List Char × Source)
  | 0, text, lead, breaks, _, s => some (text, lead, breaks, s)
  | fuel + 1, text, lead, breaks, wasBlank, s =>
    if s.column == indent && !s.atEnd then
      let isBlankLine := s.rest.head?.any isGap
      let joint :=
        if folded && lead == some '\n' && !wasBlank && !isBlankLine then
          if breaks.isEmpty then [' '] else []
        else lead.toList
      let (line, after) := s.takeWhile fun c => !isBreak c
      let text := line.reverse ++ (breaks ++ (joint ++ text))
      let lead := after.rest.head?.map breakText
      match scanBlockBreaks (some indent) (after.size + 1) [] 0 after.skipBreak with
      | none => none
      | some (breaks, _, s) => scanBlockLines folded indent fuel text lead breaks isBlankLine s
    else
      some (text, lead, breaks, s)

/-- A block scalar, from its bar on. `parent` is the column of the enclosing block collection, if
there is one. -/
def scanBlock (folded : Bool) (parent : Option Nat) (s : Source) : Option (String × Source) :=
  match scanBlockHeader s.skip with
  | none => none
  | some (chomp, step, s) =>
    let s := s.skipComment
    if !s.atLineEnd then none
    else
      let s := s.skipBreak
      let given := step.map (parent.getD 0 + ·)
      match scanBlockBreaks given (s.size + 1) [] 0 s with
      | none => none
      | some (breaks, deepest, s) =>
        let least := match parent with
          | some n => n + 1
          | none => 1
        let indent := given.getD (max deepest least)
        match scanBlockLines folded indent (s.size + 1) [] none breaks false s with
        | none => none
        | some (text, lead, breaks, s) =>
          let text := if chomp = .strip then text else lead.toList ++ text
          let text := if chomp = .keep then breaks ++ text else text
          some (String.ofList text.reverse, s)

end PlaybookPolicy.Yaml
