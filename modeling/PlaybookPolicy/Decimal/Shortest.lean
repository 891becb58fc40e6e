import PlaybookPolicy.Decimal.Basic

/-!
# Shortest decimals of doubles

A positive finite double is a natural number times a power of two, and the reals that round to it
form an interval. Its shortest decimal is the point of the coarsest decimal grid that meets the
interval, the nearest one where two meet it, and the even one of two equally near.

## Main definitions

* `Binary` — a natural number times a power of two.
* `Binary.shortest` — the shortest decimal that rounds to it.
* `FloatText` — how a format writes doubles; `FloatText.write`.
-/

namespace PlaybookPolicy

/-- The positive number `mantissa * 2 ^ exponent`. -/
structure Binary where
  /-- The significant bits. -/
  mantissa : Nat
  /-- The power of two. -/
  exponent : Int
  /-- The next double below is half as far as the next one above. -/
  atPowerOfTwo : Bool
  deriving DecidableEq, Repr

namespace Binary

/-- The value of the bits of a finite double, without its sign. -/
def ofBits (bits : Nat) : Binary :=
  let fraction := bits % Nat.pow 2 52
  let biased := bits / Nat.pow 2 52 % 2048
  if biased = 0 then ⟨fraction, -1074, false⟩
  else ⟨fraction + Nat.pow 2 52, Int.ofNat biased - 1075, fraction = 0 && biased > 1⟩

/-- Four times the number, and the ends of its rounding interval, over a common denominator
`2 ^ k`: the three numerators and `k`. -/
def scaled (b : Binary) : Nat × Nat × Nat × Nat :=
  let low := 4 * b.mantissa - (if b.atPowerOfTwo then 1 else 2)
  let high := 4 * b.mantissa + 2
  let e := b.exponent - 2
  if e ≥ 0 then
    let f := Nat.pow 2 e.natAbs
    (low * f, 4 * b.mantissa * f, high * f, 0)
  else
    (low, 4 * b.mantissa, high, e.natAbs)

/-- The point of the grid `10 ^ e` that lies in the interval from `low / den` to `high / den` and is
nearest to `value / den`, if one does. The ends belong to the interval when `closed`. -/
def gridPoint? (closed : Bool) (low value high den : Nat) (e : Int) : Option Nat :=
  let (num, unit) : Nat × Nat :=
    if e ≥ 0 then (1, den * Nat.pow 10 e.natAbs) else (Nat.pow 10 e.natAbs, den)
  let (low, value, high) := (low * num, value * num, high * num)
  let inside (n : Nat) : Bool :=
    if closed then low ≤ n * unit && n * unit ≤ high else low < n * unit && n * unit < high
  let below := value / unit
  let above := below + 1
  let toBelow := value - below * unit
  let toAbove := above * unit - value
  match inside below && below > 0, inside above with
  | true, true =>
    if toBelow < toAbove ∨ (toBelow = toAbove ∧ below % 2 = 0) then some below else some above
  | true, false => some below
  | false, true => some above
  | false, false => none

/-- The first grid, from `e` downwards, that meets the interval. -/
def firstGrid (closed : Bool) (low value high den : Nat) : Nat → Int → Decimal
  | 0, e => ⟨value / den, e⟩
  | fuel + 1, e =>
    match gridPoint? closed low value high den e with
    | some n => ⟨n, e⟩
    | none => firstGrid closed low value high den fuel (e - 1)

/-- The shortest decimal whose nearest double is the number. The ends of the interval round to the
number when its mantissa is even. Seventeen digits always suffice. -/
def shortest (b : Binary) : Decimal :=
  let (low, value, high, k) := b.scaled
  let den := Nat.pow 2 k
  let top := Int.ofNat (natDigits value).length - Int.ofNat (natDigits den).length + 1
  firstGrid (b.mantissa % 2 == 0) low value high den 20 top

end Binary

/-- How a format writes doubles. -/
structure FloatText where
  /-- The text of positive infinity; a minus sign precedes it for negative infinity. -/
  infinity : String
  /-- The text of a double that is not a number. -/
  notANumber : String
  /-- Numbers below ten to this power are written positionally … -/
  positionalBelow : Int
  /-- … and so are numbers of at least ten to this power. -/
  positionalFrom : Int
  deriving Repr

namespace FloatText

/-- The digits with a point and as many zeros as it takes, or in scientific notation. -/
def writeDecimal (t : FloatText) (d : Decimal) : List Char :=
  let digits := ((natDigits d.mantissa).reverse.dropWhile (· == '0')).reverse
  let point := Int.ofNat (natDigits d.mantissa).length + d.exponent
  if t.positionalFrom < point ∧ point ≤ t.positionalBelow then
    if point ≤ 0 then
      '0' :: '.' :: (List.replicate point.natAbs '0' ++ digits)
    else
      let places := point.natAbs
      let whole := digits.take places ++ List.replicate (places - digits.length) '0'
      let fraction := digits.drop places
      whole ++ '.' :: (if fraction.isEmpty then ['0'] else fraction)
  else
    let fraction := digits.drop 1
    digits.take 1 ++ (if fraction.isEmpty then [] else '.' :: fraction) ++
      'e' :: (toString (point - 1)).toList

/-- The text of a double. -/
def write (t : FloatText) (x : Float) : String :=
  let bits := x.toBits.toNat
  let sign := if bits ≥ Nat.pow 2 63 then "-" else ""
  if x.isNaN then t.notANumber
  else if x.isInf then sign ++ t.infinity
  else if bits % Nat.pow 2 63 = 0 then sign ++ "0.0"
  else sign ++ String.ofList (t.writeDecimal (Binary.ofBits (bits % Nat.pow 2 63)).shortest)

end FloatText

end PlaybookPolicy
