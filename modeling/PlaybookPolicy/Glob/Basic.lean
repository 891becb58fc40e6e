/-!
# Glob patterns

## Main definitions

* `GlobPart` — the parts of a pattern.
* `GlobError` — why a text is no pattern.
* `GlobError.message` — the sentence that reports it.
-/

namespace PlaybookPolicy

/-- A part of a glob pattern. -/
inductive GlobPart where
  /-- A character that stands for itself. -/
  | literal (c : Char)
  /-- `?`, any one octet. -/
  | one
  /-- `*`, any octets. -/
  | run
  /-- A leading `**/`, any directories. -/
  | leading
  /-- A trailing `/**`, anything below. -/
  | inside
  /-- An inner `/**/`, any directories between two names. -/
  | between
  /-- An octet of a class, or one outside of it. -/
  | octetClass (negated : Bool) (ranges : List (Char × Char))
  /-- One of several branches. -/
  | choice (branches : List (List GlobPart))
  deriving Inhabited

/-- Why a text is no glob pattern. -/
inductive GlobError where
  /-- A class has no closing bracket. -/
  | unclosedClass
  /-- The ends of a range stand in the wrong order. -/
  | invalidRange (first last : Char)
  /-- A closing brace has no opening one. -/
  | unopenedChoice
  /-- An opening brace has no closing one. -/
  | unclosedChoice
  /-- A backslash has nothing behind it. -/
  | danglingEscape
  deriving DecidableEq, Repr

namespace GlobError

/-- What is wrong with a pattern. -/
def reason : GlobError → String
  | unclosedClass => "unclosed character class; missing ']'"
  | invalidRange first last =>
    "invalid range; '" ++ String.singleton first ++ "' > '" ++ String.singleton last ++ "'"
  | unopenedChoice =>
    "unopened alternate group; missing '\x7b' (maybe escape '\x7d' with '[\x7d]'?)"
  | unclosedChoice =>
    "unclosed alternate group; missing '\x7d' (maybe escape '\x7b' with '[\x7b]'?)"
  | danglingEscape => "dangling '\\'"

/-- The sentence that reports the fault of a pattern. -/
def message (e : GlobError) (pattern : String) : String :=
  "error parsing glob '" ++ pattern ++ "': " ++ e.reason

end GlobError

/-- A glob pattern with the text that writes it. -/
structure Glob where
  /-- The text of the pattern. -/
  text : String
  /-- Its parts. -/
  parts : List GlobPart
  deriving Inhabited

end PlaybookPolicy
