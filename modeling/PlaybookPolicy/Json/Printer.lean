import PlaybookPolicy.Datum
import PlaybookPolicy.Decimal.Shortest

/-!
# Writing JSON

The compact form: no blanks, tables in entry order, and in texts only what JSON forbids is
escaped, so characters outside ASCII stand for themselves.

## Main definitions

* `Json.escaped` — a character as it stands between quotes.
* `Json.quoted` — a text between quotes.
* `Json.write` — the compact form of a datum.
-/

namespace PlaybookPolicy.Json

/-- A hexadecimal digit, in small letters. -/
def hexDigit (n : Nat) : Char :=
  if n < 10 then Char.ofNat ('0'.toNat + n) else Char.ofNat ('a'.toNat + (n - 10))

/-- A character as it stands between quotes. Control characters have short forms or a
four-figure code. -/
def escaped (c : Char) : List Char :=
  match c with
  | '"' => ['\\', '"']
  | '\\' => ['\\', '\\']
  | '\n' => ['\\', 'n']
  | '\r' => ['\\', 'r']
  | '\t' => ['\\', 't']
  | '\x08' => ['\\', 'b']
  | '\x0c' => ['\\', 'f']
  | c =>
    if c.toNat < 0x20 then ['\\', 'u', '0', '0', hexDigit (c.toNat / 16), hexDigit (c.toNat % 16)]
    else [c]

/-- A text between quotes. -/
def quoted (s : String) : List Char :=
  '"' :: (s.toList.flatMap escaped ++ ['"'])

/-- JSON has no word for the doubles that are not numbers; null stands for them. -/
def floatText : FloatText :=
  { infinity := "null", notANumber := "null", positionalBelow := 16, positionalFrom := -5 }

mutual

/-- The compact form of a datum. -/
def writeChars : Datum → List Char
  | .null => "null".toList
  | .bool b => (if b then "true" else "false").toList
  | .int n => (toString n).toList
  | .float x => (floatText.write x).toList
  | .text s => quoted s
  | .list items => '[' :: (writeItems items ++ [']'])
  | .table entries => '{' :: (writeEntries entries ++ ['}'])
  | .scattered entries => '{' :: (writeEntries entries ++ ['}'])

/-- List items with commas between them. -/
def writeItems : List Datum → List Char
  | [] => []
  | [d] => writeChars d
  | d :: e :: l => writeChars d ++ ',' :: writeItems (e :: l)

/-- Table entries with commas between them. -/
def writeEntries : List (String × Datum) → List Char
  | [] => []
  | [(k, d)] => quoted k ++ ':' :: writeChars d
  | (k, d) :: e :: l => quoted k ++ ':' :: (writeChars d ++ ',' :: writeEntries (e :: l))

end

/-- The compact form of a datum, as a string. -/
def write (d : Datum) : String :=
  String.ofList (writeChars d)

end PlaybookPolicy.Json
