import PlaybookPolicy.Datum
import PlaybookPolicy.Decimal.Basic

/-!
# Reading JSON

A reader for JSON texts. Integers stay exact when they fit sixty-four bits; every other number
is rounded to a double. Table entries keep their written order.

## Main definitions

* `Json.scanText` — the characters of a quoted text.
* `Json.read?` — the datum that a text writes.
-/

namespace PlaybookPolicy.Json

/-- The text without leading JSON white space. -/
def skipSpace (l : List Char) : List Char :=
  l.dropWhile fun c => c == ' ' || c == '\n' || c == '\r' || c == '\t'

/-- The number of four hexadecimal digits. -/
def hex4? (a b c d : Char) : Option Nat :=
  natOfDigits? 16 [a, b, c, d]

/-- The rest of a quoted text up to its closing quote, with escapes resolved. Two codes that
form a surrogate pair are one character; a lone surrogate reads as the replacement character. -/
def scanText : List Char → Option (List Char × List Char)
  | '"' :: l => some ([], l)
  | '\\' :: 'u' :: a :: b :: c :: d :: l =>
    match hex4? a b c d, l with
    | none, _ => none
    | some high, '\\' :: 'u' :: e :: f :: g :: h :: m =>
      match hex4? e f g h with
      | none => none
      | some low =>
        if 0xD800 ≤ high ∧ high < 0xDC00 ∧ 0xDC00 ≤ low ∧ low < 0xE000 then
          let n := 0x10000 + (high - 0xD800) * 0x400 + (low - 0xDC00)
          (scanText m).map fun (s, r) => (Char.ofNat n :: s, r)
        else
          (scanText ('\\' :: 'u' :: e :: f :: g :: h :: m)).map fun (s, r) => (unit high :: s, r)
    | some n, l => (scanText l).map fun (s, r) => (unit n :: s, r)
  | '\\' :: c :: l =>
    match simpleEscape? c with
    | none => none
    | some d => (scanText l).map fun (s, r) => (d :: s, r)
  | c :: l =>
    if c.toNat < 0x20 || c == '\\' then none else (scanText l).map fun (s, r) => (c :: s, r)
  | [] => none
termination_by l => l.length
where
  /-- The character of one code unit. -/
  unit (n : Nat) : Char :=
    if 0xD800 ≤ n ∧ n < 0xE000 then Char.ofNat 0xFFFD else Char.ofNat n
  /-- The character that a one-letter escape stands for. -/
  simpleEscape? : Char → Option Char
    | '"' => some '"'
    | '\\' => some '\\'
    | '/' => some '/'
    | 'b' => some '\x08'
    | 'f' => some '\x0c'
    | 'n' => some '\n'
    | 'r' => some '\r'
    | 't' => some '\t'
    | _ => none

/-- The number that a numeral writes. -/
def number? (l : List Char) : Option Datum :=
  let (negative, body) := match l with
    | '-' :: r => (true, r)
    | r => (false, r)
  if body.length > 1 && body.head? == some '0' && (body.drop 1).head?.any Char.isDigit then none
  else match natOfDigits? 10 body with
    | some n =>
      if negative && n = 0 then some (.float (-0.0))
      else if negative && n ≤ Nat.pow 2 63 then some (.int (-Int.ofNat n))
      else if !negative && n < Nat.pow 2 64 then some (.int n)
      else some (.float (if negative then -(Decimal.toFloat ⟨n, 0⟩) else Decimal.toFloat ⟨n, 0⟩))
    | none =>
      (Decimal.ofText? body).map fun d =>
        .float (if negative then -d.toFloat else d.toFloat)

/-- The character may stand in a numeral. -/
def isNumeralChar (c : Char) : Bool :=
  c.isDigit || c == '-' || c == '+' || c == '.' || c == 'e' || c == 'E'

mutual

/-- One value and the text after it. Every nested value costs one unit of fuel. -/
def scanValue : Nat → List Char → Option (Datum × List Char)
  | 0, _ => none
  | fuel + 1, l =>
    match skipSpace l with
    | 'n' :: 'u' :: 'l' :: 'l' :: r => some (.null, r)
    | 't' :: 'r' :: 'u' :: 'e' :: r => some (.bool true, r)
    | 'f' :: 'a' :: 'l' :: 's' :: 'e' :: r => some (.bool false, r)
    | '"' :: r => (scanText r).map fun (s, r) => (.text (String.ofList s), r)
    | '[' :: r =>
      match skipSpace r with
      | ']' :: r => some (.list [], r)
      | r => (scanItems fuel r).map fun (items, r) => (.list items, r)
    | '{' :: r =>
      match skipSpace r with
      | '}' :: r => some (.table [], r)
      | r => (scanEntries fuel r).map fun (entries, r) => (.table entries, r)
    | r =>
      let (numeral, rest) := r.span isNumeralChar
      (number? numeral).map fun d => (d, rest)

/-- List items up to the closing bracket. -/
def scanItems : Nat → List Char → Option (List Datum × List Char)
  | 0, _ => none
  | fuel + 1, l =>
    match scanValue fuel l with
    | none => none
    | some (d, r) =>
      match skipSpace r with
      | ',' :: r => (scanItems fuel r).map fun (items, r) => (d :: items, r)
      | ']' :: r => some ([d], r)
      | _ => none

/-- Table entries up to the closing brace. -/
def scanEntries : Nat → List Char → Option (List (String × Datum) × List Char)
  | 0, _ => none
  | fuel + 1, l =>
    match skipSpace l with
    | '"' :: r =>
      match scanText r with
      | none => none
      | some (k, r) =>
        match skipSpace r with
        | ':' :: r =>
          match scanValue fuel r with
          | none => none
          | some (d, r) =>
            let entry := (String.ofList k, d)
            match skipSpace r with
            | ',' :: r => (scanEntries fuel r).map fun (es, r) => (entry :: es, r)
            | '}' :: r => some ([entry], r)
            | _ => none
        | _ => none
    | _ => none

end

/-- The datum that the text writes, with nothing but white space around it. -/
def read? (s : String) : Option Datum :=
  match scanValue (s.length + 1) s.toList with
  | some (d, rest) => if (skipSpace rest).isEmpty then some d else none
  | none => none

end PlaybookPolicy.Json
