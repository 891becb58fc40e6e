/-!
# UTF-8

Octets read as characters. The reader takes one octet at a time and keeps what it still expects,
so it also says where ill-formed octets stand: each longest ill-formed run that could begin a
character is one fault.

## Main definitions

* `encode` — the octets of a string.
* `decode` — the characters of an octet sequence, `none` for each fault.
* `decode?` — the string of a faultless sequence.
* `decodeLossy` — the string with the replacement character for each fault.
-/

namespace PlaybookPolicy.Text.Utf8

/-- The octets of a string. -/
def encode (s : String) : List UInt8 :=
  s.toList.flatMap String.utf8EncodeChar

/-- A character whose first octets have been read. -/
structure Partial where
  /-- The bits read so far. -/
  bits : Nat
  /-- How many more octets belong to the character. -/
  owed : Nat
  /-- The least octet that may come next. -/
  low : Nat
  /-- The greatest octet that may come next. -/
  high : Nat

/-- The first octet of a character: a whole character, a fault, or the start of a longer one. -/
def enter (b : Nat) : List (Option Char) × Option Partial :=
  if b < 0x80 then ([some (Char.ofNat b)], none)
  else if 0xC2 ≤ b ∧ b ≤ 0xDF then ([], some ⟨b - 0xC0, 1, 0x80, 0xBF⟩)
  else if b = 0xE0 then ([], some ⟨0, 2, 0xA0, 0xBF⟩)
  else if b = 0xED then ([], some ⟨0xD, 2, 0x80, 0x9F⟩)
  else if 0xE1 ≤ b ∧ b ≤ 0xEF then ([], some ⟨b - 0xE0, 2, 0x80, 0xBF⟩)
  else if b = 0xF0 then ([], some ⟨0, 3, 0x90, 0xBF⟩)
  else if 0xF1 ≤ b ∧ b ≤ 0xF3 then ([], some ⟨b - 0xF0, 3, 0x80, 0xBF⟩)
  else if b = 0xF4 then ([], some ⟨4, 3, 0x80, 0x8F⟩)
  else ([none], none)

/-- One octet more. An octet that cannot continue the pending character ends it as a fault and
is itself read as a first octet. -/
def step (pending : Option Partial) (b : Nat) : List (Option Char) × Option Partial :=
  match pending with
  | none => enter b
  | some p =>
    if p.low ≤ b ∧ b ≤ p.high then
      let bits := p.bits * 64 + (b - 0x80)
      if p.owed ≤ 1 then ([some (Char.ofNat bits)], none)
      else ([], some ⟨bits, p.owed - 1, 0x80, 0xBF⟩)
    else
      let (out, next) := enter b
      (none :: out, next)

/-- The characters of the octets that follow a pending character. -/
def decodeFrom : Option Partial → List UInt8 → List (Option Char)
  | none, [] => []
  | some _, [] => [none]
  | pending, b :: l =>
    let (out, next) := step pending b.toNat
    out ++ decodeFrom next l

/-- The characters of an octet sequence, with `none` for each ill-formed run. -/
def decode (l : List UInt8) : List (Option Char) :=
  decodeFrom none l

/-- The string that the octets encode, if they are well formed. -/
def decode? (l : List UInt8) : Option String :=
  ((decode l).mapM id).map String.ofList

/-- The string that the octets encode, with the replacement character for each fault. -/
def decodeLossy (l : List UInt8) : String :=
  String.ofList ((decode l).map fun c => c.getD (Char.ofNat 0xFFFD))

end PlaybookPolicy.Text.Utf8
