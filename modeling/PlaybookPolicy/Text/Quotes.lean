/-!
# Quotes around a text

## Main definitions

* `isQuote` — a single or a double quote.
* `unquote` — a text without one pair of equal quotes around it.
-/

namespace PlaybookPolicy.Text

/-- The character is a quote. -/
def isQuote (c : Char) : Bool :=
  c == '"' || c == '\''

/-- The text begins and ends with the quote, and these are two characters. -/
def isQuotedBy (q : Char) (l : List Char) : Bool :=
  l.length ≥ 2 && l.head? == some q && l.getLast? == some q

/-- The text without one pair of quotes around it, if there is a pair. -/
def unquote (l : List Char) : List Char :=
  if isQuotedBy '"' l || isQuotedBy '\'' l then (l.drop 1).dropLast else l

end PlaybookPolicy.Text
