/-!
# Text in colours

A text is a list of pieces, some of them in a style. Without colours only the characters of the
pieces are written; with colours each styled piece stands between control sequences, the last of
which takes the style back.

## Main definitions

* `Style`, `Piece` — a style, and text that may have one.
* `Piece.plain`, `Piece.colored` — a piece without and with colours.
* `plainText`, `coloredText` — the same of a list of pieces.
-/

namespace PlaybookPolicy.Report

/-- A colour of text. -/
inductive Color where
  /-- For what is grave. -/
  | red
  /-- For success. -/
  | green
  /-- For what is less grave. -/
  | yellow
  /-- For remarks. -/
  | blue
  /-- For small things. -/
  | cyan
  deriving DecidableEq, Repr

/-- How a piece of text looks. -/
structure Style where
  /-- The colour of the letters. -/
  color : Color
  /-- The letters are bold. -/
  bold : Bool
  deriving DecidableEq, Repr

/-- A piece of text. -/
structure Piece where
  /-- Its style, if it has one. -/
  style : Option Style
  /-- Its characters. -/
  text : String
  deriving DecidableEq, Repr

/-- The control sequence with the given number. -/
def control (n : Nat) : String :=
  "\x1b[" ++ toString n ++ "m"

/-- The control sequence that takes all styles back. -/
def resetControl : String :=
  control 0

/-- The number of a colour in control sequences. -/
def Color.code : Color → Nat
  | red => 31
  | green => 32
  | yellow => 33
  | blue => 34
  | cyan => 36

/-- The control sequences that begin a style. They first take any other style back. -/
def Style.controls (s : Style) : String :=
  resetControl ++ (if s.bold then control 1 else "") ++ control s.color.code

namespace Piece

/-- A piece without a style. -/
def ofText (text : String) : Piece :=
  { style := none, text }

/-- The piece without colours. -/
def plain (p : Piece) : String :=
  p.text

/-- The piece with colours. -/
def colored (p : Piece) : String :=
  match p.style with
  | none => p.text
  | some s => s.controls ++ p.text ++ resetControl

end Piece

/-- The pieces without colours. -/
def plainText (l : List Piece) : String :=
  String.join (l.map Piece.plain)

/-- The pieces with colours. -/
def coloredText (l : List Piece) : String :=
  String.join (l.map Piece.colored)

end PlaybookPolicy.Report
