import PlaybookPolicy.Text.Alphanumeric
import PlaybookPolicy.Text.Blank
import PlaybookPolicy.Text.Quotes
import PlaybookPolicy.TextMap
import PlaybookPolicy.Yaml.Value

/-!
# Free-form arguments

Module arguments written on one line: words of the form `key=value`, whose values may be quoted to
hold blanks, and other words, which are kept together as one raw argument.

## Main definitions

* `words` — the words of a text, split at blanks outside quotes.
* `assignment?` — a word as key and value.
* `FreeForm.parse` — the arguments that a text writes.
-/

namespace PlaybookPolicy.FreeForm

/-- The pending word, if it has begun. Its characters are kept last one first. -/
def finish (word : List Char) : List (List Char) :=
  if word.isEmpty then [] else [word.reverse]

/-- The words of a text, given the open quote and the pending word, last character first. -/
def wordsFrom : Option Char → List Char → List Char → List (List Char)
  | _, word, [] => finish word
  | some q, word, c :: l => wordsFrom (if c = q then none else some q) (c :: word) l
  | none, word, c :: l =>
    if Text.isQuote c then wordsFrom (some c) (c :: word) l
    else if Text.isBlank c then finish word ++ wordsFrom none [] l
    else wordsFrom none (c :: word) l

/-- The words of a text, split at blanks outside quotes. Quotes stay part of their word, and one
that is never closed runs to the end. -/
def words (l : List Char) : List (List Char) :=
  wordsFrom none [] l

/-- The key and the value of a word of the form `key=value`, whose key is a non-empty text of
letters, digits and underscores. The first equals sign separates the two. -/
def assignment? (word : List Char) : Option (List Char × List Char) :=
  match word.span (· != '=') with
  | (key, _ :: value) => if !key.isEmpty && key.all Text.isWordChar then some (key, value) else none
  | (_, []) => none

/-- The key under which words that assign nothing are kept. -/
def rawKey : String := "_raw_params"

/-- The assignments among the words, in order. -/
def assignments (ws : List (List Char)) : List (String × Yaml.Value) :=
  ws.filterMap fun w => (assignment? w).map fun (key, value) =>
    (String.ofList key, .text (String.ofList (Text.unquote value)))

/-- The words that assign nothing, in order. -/
def leftovers (ws : List (List Char)) : List (List Char) :=
  ws.filter fun w => (assignment? w).isNone

/-- The arguments that a text writes: its assignments, of which the last one of a key counts, and
the other words joined by spaces, if there are any. -/
def parse (s : String) : TextMap Yaml.Value :=
  let ws := words s.toList
  let args := TextMap.ofList (assignments ws)
  let raw := leftovers ws
  if raw.isEmpty then args
  else args.insert rawKey (.text (String.ofList ([' '].intercalate raw)))

end PlaybookPolicy.FreeForm
