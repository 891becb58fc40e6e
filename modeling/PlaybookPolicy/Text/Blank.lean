/-!
# Blanks

White space as Unicode defines it, and the operations that only depend on it: trimming
both ends of a text and cutting a text at its first blank.

## Main definitions

* `isBlank` — the 25 characters of the property `White_Space`.
* `trim`, `trimStart`, `trimEnd` — a text without its outer blanks.
* `isBlankText` — a text with no other character than blanks.
-/

namespace PlaybookPolicy.Text

/-- The character is white space: tab to carriage return, space, next line, and the spaces and
separators outside ASCII. -/
def isBlank (c : Char) : Bool :=
  let n := c.toNat
  (9 ≤ n && n ≤ 13) || n == 0x20 || n == 0x85 || n == 0xA0 || n == 0x1680 ||
    (0x2000 ≤ n && n ≤ 0x200A) || n == 0x2028 || n == 0x2029 || n == 0x202F ||
    n == 0x205F || n == 0x3000

/-- The text without its leading blanks. -/
def trimStart (l : List Char) : List Char :=
  l.dropWhile isBlank

/-- The text without its trailing blanks. -/
def trimEnd (l : List Char) : List Char :=
  (l.reverse.dropWhile isBlank).reverse

/-- The text without the blanks at either end. -/
def trim (l : List Char) : List Char :=
  trimEnd (trimStart l)

@[simp] theorem trim_nil : trim [] = [] := rfl

/-- The string without the blanks at either end. -/
def trimmed (s : String) : String :=
  String.ofList (trim s.toList)

/-- The string holds nothing but blanks. -/
def isBlankText (s : String) : Bool :=
  s.toList.all isBlank

/-- ASCII capitals become small letters; every other character stays. -/
def lowered (s : String) : String :=
  String.ofList (s.toList.map Char.toLower)

end PlaybookPolicy.Text
