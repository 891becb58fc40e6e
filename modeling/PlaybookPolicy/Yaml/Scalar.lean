import PlaybookPolicy.Decimal.Shortest
import PlaybookPolicy.Yaml.Value

/-!
# Plain scalars

What an unquoted scalar means, what a tag makes of a scalar, and how numbers are written back.

## Main definitions

* `Yaml.resolvePlain` — the value of a plain scalar without a tag.
* `Yaml.resolveTagged` — the value of a scalar under one of the core tags.
* `Yaml.numberText` — how integers and doubles are written.
-/

namespace PlaybookPolicy.Yaml

/-- One of the words for null. The empty scalar is handled by the callers. -/
def isNullWord (s : String) : Bool :=
  s == "null" || s == "Null" || s == "NULL" || s == "~"

/-- The truth value that a word stands for. -/
def boolWord? (s : String) : Option Bool :=
  if s == "true" || s == "True" || s == "TRUE" then some true
  else if s == "false" || s == "False" || s == "FALSE" then some false
  else none

/-- The scalar without one leading plus sign. -/
def withoutPlus : List Char → List Char
  | '+' :: l => l
  | l => l

/-- The scalar begins with a sign. -/
def startsWithSign : List Char → Bool
  | '+' :: _ => true
  | '-' :: _ => true
  | _ => false

/-- Digits that are no number because they begin with a superfluous zero, such as `007`. -/
def isPaddedDigits (l : List Char) : Bool :=
  match (if startsWithSign l then l.drop 1 else l) with
  | '0' :: c :: r => c.isDigit && r.all Char.isDigit
  | _ => false

/-- The magnitude behind a base mark (`0x`, `0o`, `0b`), if there is one and digits follow it. -/
def basedNat? : List Char → Option Nat
  | '0' :: 'x' :: l => natOfDigits? 16 l
  | '0' :: 'o' :: l => natOfDigits? 8 l
  | '0' :: 'b' :: l => natOfDigits? 2 l
  | _ => none

/-- The scalar is a non-negative integer, in decimal or behind a base mark. -/
def unsigned? (l : List Char) : Option Nat :=
  let body := withoutPlus l
  match basedNat? body with
  | some n => some n
  | none =>
    if startsWithSign body || isPaddedDigits l then none else natOfDigits? 10 body

/-- The scalar is an integer behind a minus sign. -/
def negative? (l : List Char) : Option Int :=
  match l with
  | '-' :: body =>
    match basedNat? body with
    | some n => some (-Int.ofNat n)
    | none => if isPaddedDigits l then none else (natOfDigits? 10 body).map fun n => -Int.ofNat n
  | _ => none

/-- What an integer scalar amounts to. -/
inductive IntScalar where
  /-- An integer of the supported range. -/
  | fits (n : Int)
  /-- An integer beyond sixty-four bits that still has a hundred and twenty-eight. -/
  | tooWide
  /-- No integer, or one so large that it is read as a double. -/
  | notInt

/-- Integers have sixty-four bits, signed below zero and unsigned above. -/
def intScalar (l : List Char) : IntScalar :=
  match unsigned? l, negative? l with
  | some n, _ =>
    if n < Nat.pow 2 64 then .fits n else if n < Nat.pow 2 128 then .tooWide else .notInt
  | none, some n =>
    if -Int.ofNat (Nat.pow 2 63) ≤ n then .fits n
    else if -Int.ofNat (Nat.pow 2 127) ≤ n then .tooWide
    else .notInt
  | none, none => .notInt

/-- The scalar is a double: a word for infinity or for not-a-number, or a decimal whose value is
finite. -/
def float? (l : List Char) : Option Float :=
  let body := withoutPlus l
  let whole := String.ofList l
  let unsignedText := String.ofList body
  if l.head? == some '+' && startsWithSign body then none
  else if unsignedText == ".inf" || unsignedText == ".Inf" || unsignedText == ".INF" then
    some (1.0 / 0.0)
  else if whole == "-.inf" || whole == "-.Inf" || whole == "-.INF" then some (-1.0 / 0.0)
  else if whole == ".nan" || whole == ".NaN" || whole == ".NAN" then some (0.0 / 0.0)
  else
    let (negative, digits) := match body with
      | '-' :: r => (true, r)
      | r => (false, r)
    match Decimal.ofText? digits with
    | none => none
    | some d =>
      let x := d.toFloat
      if x.isInf then none else some (if negative then -x else x)

/-- The value of a plain scalar without a tag: null, a truth value, an integer, a double or a
text. An integer too wide for sixty-four bits is refused. -/
def resolvePlain (s : String) : Option Value :=
  let l := s.toList
  if s.isEmpty || isNullWord s then some .null
  else match boolWord? s with
    | some b => some (.bool b)
    | none =>
      match intScalar l with
      | .fits n => some (.int n)
      | .tooWide => none
      | .notInt =>
        if isPaddedDigits l then some (.text s)
        else match float? l with
          | some x => some (.float x)
          | none => some (.text s)

/-- The tags of the core schema that force the type of a scalar. -/
inductive CoreTag where
  /-- A truth value. -/
  | bool
  /-- An integer. -/
  | int
  /-- A double. -/
  | float
  /-- Null. -/
  | null
  deriving DecidableEq, Repr

/-- The core tag that a full tag names. -/
def CoreTag.ofTag? (tag : String) : Option CoreTag :=
  if tag == "tag:yaml.org,2002:bool" then some .bool
  else if tag == "tag:yaml.org,2002:int" then some .int
  else if tag == "tag:yaml.org,2002:float" then some .float
  else if tag == "tag:yaml.org,2002:null" then some .null
  else none

/-- The value of a scalar under a core tag, quoted or not; none if the text has no such value. -/
def resolveTagged (tag : CoreTag) (s : String) : Option Value :=
  match tag with
  | .bool => (boolWord? s).map .bool
  | .int =>
    match intScalar s.toList with
    | .fits n => some (.int n)
    | _ => none
  | .float => (float? s.toList).map .float
  | .null => if isNullWord s then some .null else none

/-- How doubles are written: positionally from 0.00001 up to sixteen places, else with an
exponent. -/
def floatText : FloatText :=
  { infinity := ".inf", notANumber := ".nan", positionalBelow := 16, positionalFrom := -5 }

/-- The text of an integer. -/
def intText (n : Int) : String :=
  toString n

/-- A text that a reader of plain scalars would take for something else than a text. -/
def isAmbiguous (s : String) : Bool :=
  match resolvePlain s with
  | some (.text _) => isPaddedDigits s.toList
  | _ => true

end PlaybookPolicy.Yaml
