import PlaybookPolicy.Failure
import PlaybookPolicy.Glob.Match
import PlaybookPolicy.Glob.Syntax
import PlaybookPolicy.Text.Blank

/-!
# Ignore files

Each line of an ignore file is a rule about paths below its directory: a pattern of entries to leave
out or, behind an exclamation mark, of entries to keep. The last rule that matches an entry decides.

## Main definitions

* `IgnoreRule` — one rule.
* `IgnoreRule.ofLine?` — the rule on a line.
* `ignoreRules` — the rules of a file.
* `ruleFaults` — the lines of a file that should be rules and are none.
* `verdict?` — what rules say about an entry.
-/

namespace PlaybookPolicy

/-- What rules say about an entry. -/
inductive Verdict where
  /-- It is left out. -/
  | ignored
  /-- It is kept, whatever weaker rules say. -/
  | kept
  deriving DecidableEq, Repr

/-- A rule of an ignore file. -/
structure IgnoreRule where
  /-- The parts of the pattern; a star does not reach across a slash. -/
  parts : List GlobPart
  /-- What becomes of an entry that matches. -/
  verdict : Verdict
  /-- The rule is about directories only. -/
  directoriesOnly : Bool

/-! ### Lines -/

/-- The line without blanks at its end. If an escaped space ends the line, it stays as it is. -/
def trimRuleLine (l : List Char) : List Char :=
  if [' ', '\\'].isPrefixOf l.reverse then l else Text.trimEnd l

/-- What stands before the pattern: an escape of the first character, or the marks of a rule that
keeps entries and of one that is tied to the directory. The result holds the verdict, whether the
rule is tied, and the pattern. -/
def splitRuleMarks (l : List Char) : Verdict × Bool × List Char :=
  match l with
  | '\\' :: '!' :: r => (.ignored, false, '!' :: r)
  | '\\' :: '#' :: r => (.ignored, false, '#' :: r)
  | '!' :: '/' :: r => (.kept, true, r)
  | '!' :: r => (.kept, false, r)
  | '/' :: r => (.ignored, true, r)
  | l => (.ignored, false, l)

/-- The pattern without the slash at its end, with the backslash before it, and whether there was
one. -/
def splitDirectoryMark (l : List Char) : Bool × List Char :=
  match l.reverse with
  | '/' :: '\\' :: r => (true, r.reverse)
  | '/' :: r => (true, r.reverse)
  | _ => (false, l)

/-- The pattern as it is matched below the directory: unless it is tied or has a slash, it matches at
any depth; and where it asks for everything in a directory, the directory itself does not count. -/
def anchoredPattern (tied : Bool) (l : List Char) : List Char :=
  let l := if tied || l.contains '/' || l == "**".toList then l else "**/".toList ++ l
  if "**/".toList.isPrefixOf l.reverse then l ++ "/*".toList else l

namespace IgnoreRule

/-- The rule on a line, or the fault of its pattern. An empty line and a comment hold neither. -/
def ofLine? (line : List Char) : Option (Except GlobError IgnoreRule) :=
  if line.head? == some '#' then none
  else
    let l := trimRuleLine line
    if l.isEmpty then none
    else
      let (verdict, tied, l) := splitRuleMarks l
      let (directoriesOnly, l) := splitDirectoryMark l
      some ((Glob.parseParts true (anchoredPattern tied l)).map fun parts =>
        { parts, verdict, directoriesOnly })

/-- The rule is about the entry with the given octets. -/
def applies (r : IgnoreRule) (octets : List UInt8) (isDirectory : Bool) : Bool :=
  (isDirectory || !r.directoriesOnly) && Glob.partsMatch true r.parts octets

end IgnoreRule

/-! ### Files -/

/-- The lines of a file as octets. A carriage return before the line feed belongs to the line
break. -/
def octetLines (content : List UInt8) : List (List UInt8) :=
  let lines := content.splitOn 10
  let dropReturn (l : List UInt8) : List UInt8 := if l.getLast? == some 13 then l.dropLast else l
  (lines.dropLast.map dropReturn) ++ lines.getLast?.toList

/-- The lines of a file up to the first that is no text. A mark of the encoding before the first line
is dropped. -/
def ruleLines (content : List UInt8) : List (List Char) :=
  let lines := ((octetLines content).map Text.Utf8.decode?).takeWhile Option.isSome
  match (lines.filterMap id).map String.toList with
  | [] => []
  | first :: l => first.dropWhile (· == Char.ofNat 0xFEFF) :: l

/-- The rules of a file. Faulty patterns are passed over. -/
def ignoreRules (content : List UInt8) : List IgnoreRule :=
  (ruleLines content).filterMap fun line => (IgnoreRule.ofLine? line).bind Except.toOption

/-- What is wrong with a line that should be a rule. -/
def lineFault? (line : List Char) : Option String :=
  match IgnoreRule.ofLine? line with
  | some (.error e) => some (e.message (String.ofList (trimRuleLine line)))
  | _ => none

/-- The numbers of faulty lines and what is wrong with them. That the file holds a line that is no
text is a fault only beside others. -/
def ruleFaults (content : List UInt8) : List (Nat × String) :=
  let lines := ruleLines content
  let faults := lines.zipIdx.filterMap fun (line, i) => (lineFault? line).map fun s => (i + 1, s)
  if faults.isEmpty || lines.length = (octetLines content).length then faults
  else faults ++ [(lines.length + 1, FileError.notText.message)]

/-- What the rules say about an entry, given by its octets below the directory of the file: the last
rule about it decides. -/
def verdict? (rules : List IgnoreRule) (octets : List UInt8) (isDirectory : Bool) :
    Option Verdict :=
  (rules.reverse.find? fun r => r.applies octets isDirectory).map IgnoreRule.verdict

end PlaybookPolicy
