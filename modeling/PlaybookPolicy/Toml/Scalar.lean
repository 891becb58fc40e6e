import PlaybookPolicy.Datum
import PlaybookPolicy.Decimal.Basic

/-!
# Words that stand for values in TOML

A word is a run of letters, digits and signs. It is a truth value, an integer, a double, or a date
or time.

## Main definitions

* `integer?`, `double?`, `truth?`, `isMoment` — the four kinds of words.
* `wordValue?` — the value of a word.
-/

namespace PlaybookPolicy.Toml

/-- The character may stand in a word. -/
def isWordChar (c : Char) : Bool :=
  c.isAlphanum || c == '+' || c == '-' || c == '_' || c == '.' || c == ':'

/-- The digits without the underscores between them. Each underscore has a digit on both sides. -/
def ungrouped? (isDigit : Char → Bool) : List Char → Option (List Char)
  | [] => none
  | [c] => if isDigit c then some [c] else none
  | c :: '_' :: d :: l =>
    if isDigit c && isDigit d then (ungrouped? isDigit (d :: l)).map (c :: ·) else none
  | c :: l => if isDigit c then (ungrouped? isDigit l).map (c :: ·) else none

/-- A sign, and the text behind it. The sign tells whether a number is negative. -/
def splitSign : List Char → Bool × List Char
  | '+' :: l => (false, l)
  | '-' :: l => (true, l)
  | l => (false, l)

/-- The digits of a decimal integer without a sign. A leading zero stands alone. -/
def decimalDigits? (l : List Char) : Option (List Char) :=
  if l.head? == some '0' && l.length > 1 then none else ungrouped? Char.isDigit l

/-- A digit of the base. -/
def isDigitOf (base : Nat) (c : Char) : Bool :=
  (natOfDigits? base [c]).isSome

/-- A natural number behind a mark of its base. -/
def basedNumber? (base : Nat) (l : List Char) : Option Nat :=
  (ungrouped? (isDigitOf base) l).bind (natOfDigits? base)

/-- The integer that a word writes. It fits sixty-four bits with a sign. -/
def integer? (l : List Char) : Option Int :=
  let n? : Option Int := match l with
    | '0' :: 'x' :: r => (basedNumber? 16 r).map Int.ofNat
    | '0' :: 'o' :: r => (basedNumber? 8 r).map Int.ofNat
    | '0' :: 'b' :: r => (basedNumber? 2 r).map Int.ofNat
    | l =>
      let (negative, digits) := splitSign l
      ((decimalDigits? digits).bind (natOfDigits? 10)).map fun n =>
        if negative then -Int.ofNat n else n
  n?.filter fun n => -Int.ofNat (Nat.pow 2 63) ≤ n && n < Int.ofNat (Nat.pow 2 63)

/-- The double that a word writes: `inf`, `nan`, or a decimal with a fraction, an exponent or both.
A decimal that is too large for a double is refused unless it is negative. -/
def double? (l : List Char) : Option Float :=
  let (negative, body) := splitSign l
  let signed (x : Float) : Float := if negative then -x else x
  if body == "inf".toList then some (signed (1.0 / 0.0))
  else if body == "nan".toList then some (0.0 / 0.0)
  else
    let (mantissa, tail) := body.span fun c => c != 'e' && c != 'E'
    let (whole, fraction) := mantissa.span (· != '.')
    let fraction? : Option (List Char) := match fraction with
      | [] => some []
      | _ :: digits => ungrouped? Char.isDigit digits
    let exponent? : Option Int := match tail with
      | [] => some 0
      | _ :: r =>
        let (negative, digits) := splitSign r
        ((ungrouped? Char.isDigit digits).bind (natOfDigits? 10)).map fun n =>
          if negative then -Int.ofNat n else n
    if fraction.isEmpty && tail.isEmpty then none
    else match decimalDigits? whole, fraction?, exponent? with
      | some whole, some fraction, some exponent =>
        (natOfDigits? 10 (whole ++ fraction)).bind fun n =>
          let x := Decimal.toFloat ⟨n, exponent - fraction.length⟩
          if x.isInf && !negative then none else some (signed x)
      | _, _, _ => none

/-- The truth value that a word writes. -/
def truth? (l : List Char) : Option Bool :=
  if l == "true".toList then some true
  else if l == "false".toList then some false
  else none

/-! ### Dates and times -/

/-- The number of days in a month. -/
def daysInMonth (year month : Nat) : Nat :=
  if month = 2 then
    if year % 4 = 0 ∧ (year % 100 ≠ 0 ∨ year % 400 = 0) then 29 else 28
  else if month = 4 ∨ month = 6 ∨ month = 9 ∨ month = 11 then 30
  else 31

/-- The number of two digits. -/
def twoDigits? (a b : Char) : Option Nat :=
  natOfDigits? 10 [a, b]

/-- The text is a date of the calendar, such as `1979-05-27`. -/
def isDate : List Char → Bool
  | [a, b, c, d, '-', e, f, '-', g, h] =>
    match natOfDigits? 10 [a, b, c, d], twoDigits? e f, twoDigits? g h with
    | some year, some month, some day =>
      1 ≤ month && month ≤ 12 && 1 ≤ day && day ≤ daysInMonth year month
    | _, _, _ => false
  | _ => false

/-- The text is an hour and a minute, such as `07:32`. -/
def isHourMinute : List Char → Bool
  | [a, b, ':', c, d] =>
    (twoDigits? a b).any (· ≤ 23) && (twoDigits? c d).any (· ≤ 59)
  | _ => false

/-- The text is a distance from universal time, such as `Z` or `+01:00`. -/
def isOffset : List Char → Bool
  | ['Z'] => true
  | ['z'] => true
  | '+' :: l => isHourMinute l
  | '-' :: l => isHourMinute l
  | _ => false

/-- A time of day, such as `07:32:00.5`, and the text behind it. A minute may have a leap second. -/
def scanTime (l : List Char) : Option (List Char) :=
  match l with
  | a :: b :: ':' :: c :: d :: ':' :: e :: f :: r =>
    if isHourMinute [a, b, ':', c, d] && (twoDigits? e f).any (· ≤ 60) then
      match r with
      | '.' :: r =>
        if r.head?.any Char.isDigit then some (r.dropWhile Char.isDigit) else none
      | r => some r
    else none
  | _ => none

/-- The text is a date, a time, or both; with both there may be an offset. -/
def isMoment (l : List Char) : Bool :=
  isDate l || (scanTime l).any List.isEmpty ||
    (isDate (l.take 10) &&
      match l.drop 10 with
      | c :: r =>
        (c == 'T' || c == 't' || c == ' ') &&
          (scanTime r).any fun rest => rest.isEmpty || isOffset rest
      | [] => false)

/-- A date or time as a datum: a table with one private key that no record has as a field. -/
def moment (l : List Char) : Datum :=
  .table [("$moment", .text (String.ofList l))]

/-! ### Words -/

/-- The value of a word. -/
def wordValue? (l : List Char) : Option Datum :=
  match truth? l, integer? l, double? l with
  | some b, _, _ => some (.bool b)
  | none, some n, _ => some (.int n)
  | none, none, some x => some (.float x)
  | none, none, none => if isMoment l then some (moment l) else none

/-- A word, and the text behind it. A date takes a space and the time behind it along. -/
def scanWord (l : List Char) : List Char × List Char :=
  let (word, rest) := l.span isWordChar
  match rest with
  | ' ' :: d :: r =>
    if isDate word && d.isDigit then
      let (time, rest) := (d :: r).span isWordChar
      (word ++ ' ' :: time, rest)
    else (word, rest)
  | rest => (word, rest)

end PlaybookPolicy.Toml
