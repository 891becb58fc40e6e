/-!
# YAML values

The values of a YAML document once aliases are expanded and plain scalars resolved.

## Main definitions

* `Yaml.Value` — null, booleans, numbers, texts, sequences, mappings and tagged values.
* `Value.untagged` — the value under any number of tags.
* `Value.asText?`, `Value.asMapping?`, `Value.isNull` — accessors that look through tags.
* `Value.get?` — the value under a text key of a mapping; a tagged key is not found.
* `Value.same` — equality of values as mapping keys.
-/

namespace PlaybookPolicy.Yaml

/-- A YAML value. A mapping keeps its entries in document order. -/
inductive Value where
  /-- The null value. -/
  | null
  /-- A truth value. -/
  | bool (b : Bool)
  /-- An integer. -/
  | int (n : Int)
  /-- A double. -/
  | float (x : Float)
  /-- A text. -/
  | text (s : String)
  /-- A sequence of values. -/
  | sequence (items : List Value)
  /-- Values under keys. -/
  | mapping (entries : List (Value × Value))
  /-- A value with a local tag. -/
  | tagged (tag : String) (v : Value)
  deriving Inhabited

/-- The entries of a mapping, in document order. -/
abbrev Mapping := List (Value × Value)

namespace Value

/-- The value under any number of tags. -/
def untagged : Value → Value
  | tagged _ v => v.untagged
  | v => v

/-- The text of a value, under any tags. -/
def asText? (v : Value) : Option String :=
  match v.untagged with
  | text s => some s
  | _ => none

/-- The entries of a mapping, under any tags. -/
def asMapping? (v : Value) : Option Mapping :=
  match v.untagged with
  | mapping entries => some entries
  | _ => none

/-- The value is null, under any tags. -/
def isNull (v : Value) : Bool :=
  match v.untagged with
  | null => true
  | _ => false

/-- The value is a text and is `s`. A tagged text is no such value. -/
def isText (s : String) : Value → Bool
  | text t => t == s
  | _ => false

end Value

/-- The value under a text key. A tagged key is no text key. -/
def Mapping.get? (m : Mapping) (key : String) : Option Value :=
  (m.find? fun e => e.1.isText key).map Prod.snd

/-- Some entry has the text as its key. -/
def Mapping.hasKey (m : Mapping) (key : String) : Bool :=
  m.any fun e => e.1.isText key

/-- A tag without its leading exclamation mark; the lone mark stays. -/
def tagName (tag : String) : String :=
  match tag.toList with
  | '!' :: c :: l => String.ofList (c :: l)
  | _ => tag

/-- Doubles as keys: all that are not numbers are one key, and so are the two zeros. -/
def sameFloat (x y : Float) : Bool :=
  x == y || (x.isNaN && y.isNaN)

mutual

/-- The two values count as one mapping key. Integers and doubles are never the same key, the order
of mapping entries does not matter, and neither does the mark before a tag's name. -/
def Value.same : Value → Value → Bool
  | .null, .null => true
  | .bool a, .bool b => a == b
  | .int a, .int b => a == b
  | .float a, .float b => sameFloat a b
  | .text a, .text b => a == b
  | .sequence a, .sequence b => sameItems a b
  | .mapping a, .mapping b => a.length == b.length && sameEntries a b
  | .tagged s a, .tagged t b => tagName s == tagName t && Value.same a b
  | _, _ => false

/-- The sequences agree item by item. -/
def sameItems : List Value → List Value → Bool
  | [], [] => true
  | a :: as, b :: bs => Value.same a b && sameItems as bs
  | _, _ => false

/-- Every entry of the first list has an equal entry in the second. -/
def sameEntries : List (Value × Value) → List (Value × Value) → Bool
  | [], _ => true
  | (k, v) :: es, other => (other.any fun e => Value.same k e.1 && Value.same v e.2) && sameEntries es other

end

/-- No two entries have the same key. -/
def Mapping.distinctKeys : Mapping → Bool
  | [] => true
  | (k, _) :: m => !(m.any fun e => k.same e.1) && Mapping.distinctKeys m

end PlaybookPolicy.Yaml
