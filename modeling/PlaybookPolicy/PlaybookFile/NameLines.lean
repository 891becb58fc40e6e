import PlaybookPolicy.Text.Blank
import PlaybookPolicy.Text.Quotes

/-!
# Lines that declare names

Plays and tasks are located by the first line that declares their name below the lines already
claimed.

## Main definitions

* `splitLines` — the lines of a text.
* `declaredName?` — the name that a line declares.
* `locate?` — the first line after a given one that declares a name.
-/

namespace PlaybookPolicy

/-- The lines of a text, without their line feeds. -/
def splitLines (l : List Char) : List (List Char) :=
  l.splitOn '\n'

/-- The line without any number of item marks before its text. -/
def dropItemMarks : List Char → List Char
  | '-' :: ' ' :: l => dropItemMarks l
  | l => l

/-- The name that a line declares: what stands behind `name:`, without blanks and one pair of quotes
around it. Item marks may stand before the key. -/
def declaredName? (line : List Char) : Option String :=
  match Text.trimStart (dropItemMarks (Text.trimStart line)) with
  | 'n' :: 'a' :: 'm' :: 'e' :: ':' :: l => some (String.ofList (Text.unquote (Text.trim l)))
  | _ => none

/-- The names that the lines of a text declare. -/
abbrev NameLines := List (Option String)

/-- The names that the lines of a text declare, line by line. -/
def NameLines.of (content : String) : NameLines :=
  (splitLines content.toList).map declaredName?

/-- The first line, counted from one, that declares the name and comes after line `after`. Lines are
counted without a bound: what is found is one of the lines of the text, so thirty-two bits are
enough for it in a text of fewer than `2 ^ 32` lines. -/
def NameLines.locate? (names : NameLines) (name : String) (after : Nat) : Option Nat :=
  ((names.drop after).findIdx? (· == some name)).map fun i => after + i + 1

end PlaybookPolicy
