import PlaybookPolicy.Toml.Scalar
import PlaybookPolicy.Toml.Table
import PlaybookPolicy.Toml.Text

/-!
# Reading TOML

A text is a sequence of lines; each holds an entry, a header or nothing, and may end in a comment.

## Main definitions

* `scanKey` — a dotted key.
* `scanValue` — a value.
* `Toml.read?` — the datum that a text writes.
-/

namespace PlaybookPolicy.Toml

/-- The text without leading spaces and tabs. -/
def skipGap (l : List Char) : List Char :=
  l.dropWhile isGap

/-- The text behind a comment; the text itself if it does not begin with one. -/
def skipComment : List Char → List Char
  | '#' :: l => l.dropWhile isTextChar
  | l => l

/-- The text behind the end of a line: a gap and a comment at most, and then a line break or the end
of the text. -/
def endLine (l : List Char) : Option (List Char) :=
  match skipComment (skipGap l) with
  | [] => some []
  | '\n' :: l => some l
  | '\r' :: '\n' :: l => some l
  | _ => none

/-- The text behind any gaps, comments and line breaks. -/
def skipLines : Nat → List Char → List Char
  | 0, l => l
  | fuel + 1, l =>
    match skipComment (skipGap l) with
    | '\n' :: l => skipLines fuel l
    | '\r' :: '\n' :: l => skipLines fuel l
    | l => l

/-! ### Keys -/

/-- The character may stand in a key without quotes. -/
def isKeyChar (c : Char) : Bool :=
  c.isAlphanum || c == '_' || c == '-'

/-- One part of a dotted key. -/
def scanKeyPart (l : List Char) : Option (String × List Char) :=
  let scanned? := match l with
    | '"' :: r => scanBasic r
    | '\'' :: r => scanLiteral r
    | l =>
      let (word, r) := l.span isKeyChar
      if word.isEmpty then none else some (word, r)
  scanned?.map fun (word, r) => (String.ofList word, r)

/-- The parts of a dotted key, with gaps around each. -/
def scanKeyParts : Nat → List Char → Option (List String × List Char)
  | 0, _ => none
  | fuel + 1, l =>
    match scanKeyPart (skipGap l) with
    | none => none
    | some (part, r) =>
      match skipGap r with
      | '.' :: r => (scanKeyParts fuel r).map fun (parts, r) => (part :: parts, r)
      | r => some ([part], r)

/-- How deeply keys and values may be nested. -/
def nestingLimit : Nat := 80

/-- A dotted key: the path to a table, and the last part. -/
def scanKey (l : List Char) : Option (List String × String × List Char) :=
  match scanKeyParts (l.length + 1) l with
  | some (parts, r) =>
    if parts.length ≥ nestingLimit then none
    else parts.getLast?.map fun key => (parts.dropLast, key, r)
  | none => none

/-! ### Values -/

mutual

/-- A value, behind which anything may follow. `depth` counts the brackets and braces around it. -/
def scanValue (depth : Nat) : Nat → List Char → Option (Datum × List Char)
  | 0, _ => none
  | fuel + 1, l =>
    match l with
    | '[' :: r =>
      if depth + 1 ≥ nestingLimit then none
      else (scanItems (depth + 1) fuel r).map fun (items, r) => (.list items, r)
    | '{' :: r =>
      if depth + 1 ≥ nestingLimit then none
      else
        match skipGap r with
        | '}' :: r => some (.table [], r)
        | r =>
          (scanEntries (depth + 1) fuel [] r).map fun (es, r) => (.table (entryData true es), r)
    | '"' :: _ => (scanText l).map fun (s, r) => (.text (String.ofList s), r)
    | '\'' :: _ => (scanText l).map fun (s, r) => (.text (String.ofList s), r)
    | l =>
      let (word, r) := scanWord l
      (wordValue? word).map fun d => (d, r)

/-- The items of a list up to its closing bracket. -/
def scanItems (depth : Nat) : Nat → List Char → Option (List Datum × List Char)
  | 0, _ => none
  | fuel + 1, l =>
    match skipLines (l.length + 1) l with
    | ']' :: r => some ([], r)
    | l =>
      match scanValue depth fuel l with
      | none => none
      | some (d, r) =>
        match skipLines (r.length + 1) r with
        | ',' :: r => (scanItems depth fuel r).map fun (items, r) => (d :: items, r)
        | ']' :: r => some ([d], r)
        | _ => none

/-- The entries in braces up to the closing brace, added to those before them. -/
def scanEntries (depth : Nat) : Nat → Entries → List Char → Option (Entries × List Char)
  | 0, _, _ => none
  | fuel + 1, es, l =>
    match scanKey l with
    | some (path, key, '=' :: r) =>
      match scanValue depth fuel (skipGap r) with
      | none => none
      | some (d, r) =>
        match insertKey path key d es with
        | none => none
        | some es =>
          match skipGap r with
          | ',' :: r => scanEntries depth fuel es r
          | '}' :: r => some (es, r)
          | _ => none
    | _ => none

end

/-! ### Lines -/

/-- The tables read so far, and the header that later entries belong to. -/
structure Document where
  /-- All entries, from the top. -/
  entries : Entries := []
  /-- The path of the last header; empty above the first one. -/
  current : List String := []

namespace Document

/-- Adds an entry to the table of the last header. -/
def insert (doc : Document) (path : List String) (key : String) (d : Datum) : Option Document :=
  let change (_ : Origin) (es : Entries) : Option Entries := insertKey path key d es
  (descend false change doc.current .written doc.entries).map fun entries => { doc with entries }

/-- Reads one line. -/
def scanLine (doc : Document) (l : List Char) : Option (Document × List Char) :=
  match skipGap l with
  | '[' :: '[' :: r =>
    match scanKey r with
    | some (path, key, ']' :: ']' :: r) =>
      match appendTable path key doc.entries, endLine r with
      | some entries, some r => some ({ entries, current := path ++ [key] }, r)
      | _, _ => none
    | _ => none
  | '[' :: r =>
    match scanKey r with
    | some (path, key, ']' :: r) =>
      match openTable path key doc.entries, endLine r with
      | some entries, some r => some ({ entries, current := path ++ [key] }, r)
      | _, _ => none
    | _ => none
  | r =>
    match endLine r with
    | some r => some (doc, r)
    | none =>
      match scanKey r with
      | some (path, key, '=' :: r) =>
        match scanValue 0 (r.length + 1) (skipGap r) with
        | none => none
        | some (d, r) =>
          match doc.insert path key d, endLine r with
          | some doc, some r => some (doc, r)
          | _, _ => none
      | _ => none

/-- Reads lines to the end of the text. Each takes at least a character. -/
def scanLines : Nat → Document → List Char → Option Document
  | _, doc, [] => some doc
  | 0, _, _ => none
  | fuel + 1, doc, l =>
    match doc.scanLine l with
    | some (doc, r) => scanLines fuel doc r
    | none => none

end Document

/-- The datum that a text writes. A mark of the encoding may stand before it. -/
def read? (s : String) : Option Datum :=
  let l := s.toList
  let l := if l.head? == some (Char.ofNat 0xFEFF) then l.drop 1 else l
  (Document.scanLines (l.length + 1) {} l).map fun doc => .scattered (entryData false doc.entries)

end PlaybookPolicy.Toml
