import PlaybookPolicy.Decimal.Basic

/-!
# Texts in TOML

A text stands between double quotes, with escapes, or between single quotes, without; three quotes
let it span several lines. Every scanner starts behind the opening quotes and returns the characters
of the text and what follows the closing quotes.

## Main definitions

* `isTextChar` — the characters that stand for themselves on a line of text.
* `scanBasic`, `scanLiteral` — texts on one line.
* `scanLongBasic`, `scanLongLiteral` — texts on several lines.
* `scanText` — a text of any form.
-/

namespace PlaybookPolicy.Toml

/-- A space or a tab. -/
def isGap (c : Char) : Bool :=
  c == ' ' || c == '\t'

/-- The character stands for itself: a tab, or no control character. -/
def isTextChar (c : Char) : Bool :=
  c == '\t' || (0x20 ≤ c.toNat && c.toNat != 0x7F)

/-- The character with the code that hexadecimal digits write. -/
def charOfHex? (digits : List Char) : Option Char :=
  (natOfDigits? 16 digits).bind fun n =>
    if (0xD800 ≤ n ∧ n ≤ 0xDFFF) ∨ n > 0x10FFFF then none else some (Char.ofNat n)

/-- The character of a one-letter escape. -/
def escapeChar? : Char → Option Char
  | 'b' => some '\x08'
  | 't' => some '\t'
  | 'n' => some '\n'
  | 'f' => some '\x0c'
  | 'r' => some '\r'
  | '"' => some '"'
  | '\\' => some '\\'
  | _ => none

/-- Puts a character before what was scanned behind it; neither may be missing. -/
def consChar (c : Option Char) (scanned : Option (List Char × List Char)) :
    Option (List Char × List Char) :=
  match c, scanned with
  | some c, some (text, rest) => some (c :: text, rest)
  | _, _ => none

/-- A text on one line up to its closing double quote. -/
def scanBasic : List Char → Option (List Char × List Char)
  | '"' :: l => some ([], l)
  | '\\' :: 'u' :: a :: b :: c :: d :: l => consChar (charOfHex? [a, b, c, d]) (scanBasic l)
  | '\\' :: 'U' :: a :: b :: c :: d :: e :: f :: g :: h :: l =>
    consChar (charOfHex? [a, b, c, d, e, f, g, h]) (scanBasic l)
  | '\\' :: c :: l => consChar (escapeChar? c) (scanBasic l)
  | c :: l => if isTextChar c && c != '\\' then consChar (some c) (scanBasic l) else none
  | [] => none

/-- A text on one line up to its closing single quote. -/
def scanLiteral : List Char → Option (List Char × List Char)
  | '\'' :: l => some ([], l)
  | c :: l => if isTextChar c then consChar (some c) (scanLiteral l) else none
  | [] => none

/-- What follows three closing quotes: at most two more quotes still belong to the text. -/
def closeLong (q : Char) (l : List Char) : List Char × List Char :=
  let extra := (l.takeWhile (· == q)).take 2
  (extra, l.drop extra.length)

/-- A line break comes behind any number of gaps. -/
def endsLine (l : List Char) : Bool :=
  match l.dropWhile isGap with
  | '\n' :: _ => true
  | '\r' :: '\n' :: _ => true
  | _ => false

/-- A text on several lines up to its three closing double quotes. A backslash at the end of a line
joins it to the next character that is no blank; `joining` holds while such blanks are passed over.
A carriage return before a line feed is dropped. -/
def scanLongBasic (joining : Bool) : List Char → Option (List Char × List Char)
  | '"' :: '"' :: '"' :: l => some (closeLong '"' l)
  | '\\' :: 'u' :: a :: b :: c :: d :: l =>
    consChar (charOfHex? [a, b, c, d]) (scanLongBasic false l)
  | '\\' :: 'U' :: a :: b :: c :: d :: e :: f :: g :: h :: l =>
    consChar (charOfHex? [a, b, c, d, e, f, g, h]) (scanLongBasic false l)
  | '\\' :: c :: l =>
    match escapeChar? c with
    | some d => consChar (some d) (scanLongBasic false l)
    | none => if endsLine (c :: l) then scanLongBasic true (c :: l) else none
  | '\r' :: '\n' :: l => scanLongBasic joining ('\n' :: l)
  | c :: l =>
    if joining && (isGap c || c == '\n') then scanLongBasic true l
    else if (isTextChar c && c != '\\') || c == '\n' then consChar (some c) (scanLongBasic false l)
    else none
  | [] => none

/-- A text on several lines up to its three closing single quotes. -/
def scanLongLiteral : List Char → Option (List Char × List Char)
  | '\'' :: '\'' :: '\'' :: l => some (closeLong '\'' l)
  | '\r' :: '\n' :: l => scanLongLiteral ('\n' :: l)
  | c :: l => if isTextChar c || c == '\n' then consChar (some c) (scanLongLiteral l) else none
  | [] => none

/-- The text without the line break that it begins with. -/
def dropBreak : List Char → List Char
  | '\n' :: l => l
  | '\r' :: '\n' :: l => l
  | l => l

/-- A text of any form, from its opening quotes on. -/
def scanText : List Char → Option (List Char × List Char)
  | '"' :: '"' :: '"' :: l => scanLongBasic false (dropBreak l)
  | '\'' :: '\'' :: '\'' :: l => scanLongLiteral (dropBreak l)
  | '"' :: l => scanBasic l
  | '\'' :: l => scanLiteral l
  | _ => none

end PlaybookPolicy.Toml
