import PlaybookPolicy.Text.Blank

/-!
# Lists of texts

## Main definitions

* `firstOccurrences` — a list without repetitions, in the order of first occurrence.
* `cleaned` — the non-empty texts of a list after a normalisation, without repetitions.
-/

namespace PlaybookPolicy.Text

/-- The list without repetitions: of equal texts the first one stays. -/
def firstOccurrences : List String → List String
  | [] => []
  | s :: l => s :: (firstOccurrences l).filter (· != s)

/-- The texts after `normal`, without empty ones and repetitions. -/
def cleaned (normal : String → String) (l : List String) : List String :=
  firstOccurrences ((l.map normal).filter (· != ""))

/-- The texts with `sep` between them. -/
def joined (sep : String) (l : List String) : String :=
  sep.intercalate l

end PlaybookPolicy.Text
