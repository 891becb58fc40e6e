/-!
# Decimal numerals

Unsigned decimal numerals with a point and an exponent, read from text and rounded to a double.

## Main definitions

* `Decimal` — a natural number times a power of ten.
* `Decimal.ofText?` — reads `12`, `1.5`, `.5`, `3.` and `2e-7`.
* `Decimal.toFloat` — the nearest double, infinite beyond the range of doubles.
* `natOfDigits?` — a natural number in a base from 2 to 36.
-/

namespace PlaybookPolicy

/-- The number `mantissa * 10 ^ exponent`. -/
structure Decimal where
  /-- The digits, read as one natural number. -/
  mantissa : Nat
  /-- The power of ten. -/
  exponent : Int
  deriving DecidableEq, Repr

/-- The value of a digit of base 36. -/
def digitValue (c : Char) : Nat :=
  if c.isDigit then c.toNat - '0'.toNat
  else if c.isLower then c.toNat - 'a'.toNat + 10
  else if c.isUpper then c.toNat - 'A'.toNat + 10
  else 36

/-- The natural number that the digits write in the given base; at least one digit. -/
def natOfDigits? (base : Nat) (l : List Char) : Option Nat :=
  if !l.isEmpty && l.all (digitValue · < base) then
    some (l.foldl (fun n c => n * base + digitValue c) 0)
  else
    none

/-- The decimal digits of a natural number. -/
def natDigits (n : Nat) : List Char :=
  Nat.toDigits 10 n

namespace Decimal

/-- Reads an exponent: an optional sign and digits. -/
def exponentOfText? : List Char → Option Int
  | '+' :: l => (natOfDigits? 10 l).map Int.ofNat
  | '-' :: l => (natOfDigits? 10 l).map fun n => -Int.ofNat n
  | l => (natOfDigits? 10 l).map Int.ofNat

/-- Reads digits with at most one point, at least one digit on either side of it, and an
optional exponent. There is no sign. -/
def ofText? (l : List Char) : Option Decimal :=
  let (body, rest) := l.span fun c => c != 'e' && c != 'E'
  let (whole, point) := body.span (· != '.')
  let fraction := point.drop 1
  match natOfDigits? 10 (whole ++ fraction) with
  | none => none
  | some mantissa =>
    let exponent? :=
      match rest with
      | [] => some 0
      | _ :: tail => exponentOfText? tail
    exponent?.map fun e => ⟨mantissa, e - Int.ofNat fraction.length⟩

/-- The nearest double. Numerals far outside the range of doubles are settled by their size, so
the cost does not grow with the exponent. -/
def toFloat (d : Decimal) : Float :=
  let top := Int.ofNat (natDigits d.mantissa).length + d.exponent
  if d.mantissa = 0 ∨ top < -400 then 0.0
  else if top > 400 then 1.0 / 0.0
  else if d.exponent < 0 then Float.ofScientific d.mantissa true d.exponent.natAbs
  else Float.ofScientific d.mantissa false d.exponent.natAbs

end Decimal

end PlaybookPolicy
