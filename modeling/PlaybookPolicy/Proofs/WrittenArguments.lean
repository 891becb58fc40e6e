import Mathlib.Data.List.TakeDrop
import PlaybookPolicy.Proofs.FreeFormWords
import PlaybookPolicy.Proofs.MapEntries
import PlaybookPolicy.Proofs.QuotedText

/-!
# Arguments written on a line

An argument is written as `key="value"`, or in single quotes if the value holds a double one.  In
quotes a value may hold blanks, line breaks, equals signs and the other quote: the quote stays open
until its like comes, and the first equals sign is the one behind the key.  So a line of such words,
however they are spaced, is read back as the arguments it was written from.

## Main definitions

* `FreeForm.Assigns` — a word is of the form `key=value`.
* `FreeForm.Assignment` — an argument that can be written.
* `FreeForm.Assignment.word` — the word that writes it.
* `FreeForm.line` — words with blanks behind them.

## Main results

* `FreeForm.words_line` — the words of a line are those it was written from.
* `FreeForm.assignment?_eq_some_iff` — a word is cut at its first equals sign.
* `FreeForm.assignment?_word`, `FreeForm.Assignment.unquote_quoted` — a word is read as the argument
  that it writes.
* `FreeForm.parse_line` — **arguments written on a line are read back.**
-/

namespace PlaybookPolicy

/-! ### Characters of keys -/

namespace Text

/-- The code points of blanks. -/
def blankCodes : List Nat :=
  List.range' 9 5 ++ List.range' 0x2000 11 ++
    [0x20, 0x85, 0xA0, 0x1680, 0x2028, 0x2029, 0x202F, 0x205F, 0x3000]

theorem toNat_mem_blankCodes {c : Char} (h : isBlank c = true) : c.toNat ∈ blankCodes := by
  simp only [isBlank, Bool.or_eq_true, Bool.and_eq_true, decide_eq_true_eq, beq_iff_eq] at h
  simp only [blankCodes, List.mem_append, List.mem_range'_1, List.mem_cons, List.not_mem_nil,
    or_false]
  omega

/-- No blank may stand in an argument name. -/
theorem isBlank_of_isWordChar {c : Char} (h : isWordChar c = true) : isBlank c = false := by
  have hblanks : ∀ n ∈ blankCodes, isWordChar (Char.ofNat n) = false := by decide +kernel
  rw [Bool.eq_false_iff]
  intro hblank
  have hword := hblanks c.toNat (toNat_mem_blankCodes hblank)
  rw [Char.ofNat_toNat, h] at hword
  cases hword

theorem isQuote_of_isWordChar {c : Char} (h : isWordChar c = true) : isQuote c = false := by
  rw [Bool.eq_false_iff]
  intro hquote
  simp only [isQuote, Bool.or_eq_true, beq_iff_eq] at hquote
  rcases hquote with rfl | rfl
  · revert h
    decide
  · revert h
    decide

end Text

namespace FreeForm

variable {w l m : List Char}

/-! ### What the scanner does with a word -/

/-- Characters that are neither blanks nor quotes become part of the pending word. -/
theorem wordsFrom_plain (h : ∀ c ∈ l, Text.isBlank c = false ∧ Text.isQuote c = false) :
    wordsFrom none w (l ++ m) = wordsFrom none (l.reverse ++ w) m := by
  induction l generalizing w with
  | nil => rfl
  | cons c l ih =>
    rw [List.forall_mem_cons] at h
    obtain ⟨⟨hblank, hquote⟩, hl⟩ := h
    rw [List.cons_append, wordsFrom, hquote, hblank, if_neg Bool.false_ne_true,
      if_neg Bool.false_ne_true, ih hl, List.reverse_cons, List.append_assoc, List.singleton_append]

/-- A quote stays open until its like comes. -/
theorem wordsFrom_quoted {q : Char} (h : q ∉ l) :
    wordsFrom (some q) w (l ++ q :: m) = wordsFrom none (q :: (l.reverse ++ w)) m := by
  induction l generalizing w with
  | nil => rw [List.nil_append, wordsFrom, if_pos rfl, List.reverse_nil, List.nil_append]
  | cons c l ih =>
    rw [List.mem_cons, not_or] at h
    rw [List.cons_append, wordsFrom, if_neg (Ne.symm h.1), ih h.2, List.reverse_cons,
      List.append_assoc, List.singleton_append]

/-- Blanks end the pending word. -/
theorem wordsFrom_gap (h : ∀ c ∈ l, Text.isBlank c = true) (hne : l ≠ []) :
    wordsFrom none w (l ++ m) = finish w ++ words m := by
  induction l generalizing w with
  | nil => exact absurd rfl hne
  | cons c l ih =>
    rw [List.forall_mem_cons] at h
    rw [List.cons_append, wordsFrom, isQuote_of_isBlank h.1, if_neg Bool.false_ne_true, if_pos h.1]
    by_cases hl : l = []
    · rw [hl, List.nil_append, words]
    · have hnone : finish [] = [] := rfl
      rw [ih h.2 hl, hnone, List.nil_append]

/-- Blanks before a text do not count. -/
theorem words_append_of_blank (h : ∀ c ∈ l, Text.isBlank c = true) : words (l ++ m) = words m := by
  by_cases hl : l = []
  · rw [hl, List.nil_append]
  · exact wordsFrom_gap h hl

/-! ### Assignments -/

/-- The word is a key, an equals sign and a value.  The key is a non-empty text of letters, digits
and underscores. -/
structure Assigns (w key value : List Char) : Prop where
  eq_append : w = key ++ '=' :: value
  key_ne_nil : key ≠ []
  isWordChar_of_mem : ∀ c ∈ key, Text.isWordChar c = true

/-- A word is cut at its first equals sign, as no other may stand in a key. -/
theorem assignment?_eq_some_iff {key value : List Char} :
    assignment? w = some (key, value) ↔ Assigns w key value := by
  constructor
  · intro h
    have happend := List.takeWhile_append_dropWhile (p := (· != '=')) (l := w)
    have hhead := List.head?_dropWhile_not (· != '=') w
    rw [assignment?, List.span_eq_takeWhile_dropWhile] at h
    cases hrest : w.dropWhile (· != '=') with
    | nil =>
      rw [hrest] at h
      cases h
    | cons c rest =>
      rw [hrest] at h hhead happend
      obtain rfl : c = '=' := by simpa using hhead
      simp only [Option.ite_none_right_eq_some, Bool.and_eq_true, Bool.not_eq_true',
        List.isEmpty_eq_false_iff, List.all_eq_true, Option.some.injEq, Prod.mk.injEq] at h
      obtain ⟨⟨hne, hword⟩, rfl, rfl⟩ := h
      exact ⟨happend.symm, hne, hword⟩
  · rintro ⟨rfl, hne, hword⟩
    have hkey : ∀ c ∈ key, (c != '=') = true := by
      intro c hc
      rw [bne_iff_ne]
      rintro rfl
      exact absurd (hword '=' hc) (by decide)
    have hspan : (key ++ '=' :: value).span (· != '=') = (key, '=' :: value) := by
      rw [List.span_eq_takeWhile_dropWhile, List.takeWhile_append_of_pos hkey,
        List.dropWhile_append_of_pos hkey, List.takeWhile_cons_of_neg (by decide),
        List.dropWhile_cons_of_neg (by decide), List.append_nil]
    have hall : key.all Text.isWordChar = true := List.all_eq_true.mpr hword
    have hempty : key.isEmpty = false := List.isEmpty_eq_false_iff.mpr hne
    rw [assignment?, hspan]
    exact if_pos (by rw [hall, hempty]; rfl)

/-- An argument that can be written on a line: its key is a word, and its value does not hold quotes
of both kinds. -/
structure Assignment where
  /-- The key. -/
  key : String
  /-- The value. -/
  value : String
  key_ne : key ≠ ""
  isWordChar_of_mem : ∀ c ∈ key.toList, Text.isWordChar c = true
  quotes : ¬('"' ∈ value.toList ∧ '\'' ∈ value.toList)

namespace Assignment

variable (a : Assignment)

/-- The quote around the value: the double one, if the value does not hold it. -/
def quote : Char :=
  if '"' ∈ a.value.toList then '\'' else '"'

/-- The value in quotes. -/
def quoted : List Char :=
  a.quote :: (a.value.toList ++ [a.quote])

/-- The word that writes the argument. -/
def word : List Char :=
  a.key.toList ++ '=' :: a.quoted

theorem quote_cases : a.quote = '"' ∨ a.quote = '\'' := by
  rw [quote]
  split
  · exact .inr rfl
  · exact .inl rfl

theorem isQuote_quote : Text.isQuote a.quote = true := by
  rcases a.quote_cases with h | h <;> rw [h] <;> rfl

theorem quote_notMem : a.quote ∉ a.value.toList := by
  rw [quote]
  split
  · next hdouble => exact fun hsingle => a.quotes ⟨hdouble, hsingle⟩
  · next hdouble => exact hdouble

theorem unquote_quoted : Text.unquote a.quoted = a.value.toList :=
  Text.unquote_of_inQuotes ⟨a.quote, a.quote_cases, rfl⟩

theorem toList_key_ne_nil : a.key.toList ≠ [] :=
  fun h => a.key_ne (String.toList_eq_nil_iff.mp h)

/-- The scanner takes the word as a whole. -/
theorem wordsFrom_word : wordsFrom none [] (a.word ++ m) = wordsFrom none a.word.reverse m := by
  have hkey : ∀ c ∈ a.key.toList ++ ['='], Text.isBlank c = false ∧ Text.isQuote c = false := by
    intro c hc
    rcases List.mem_append.mp hc with hc | hc
    · have hword := a.isWordChar_of_mem c hc
      exact ⟨Text.isBlank_of_isWordChar hword, Text.isQuote_of_isWordChar hword⟩
    · rw [List.mem_singleton.mp hc]
      decide
  have hsplit : a.word ++ m =
      (a.key.toList ++ ['=']) ++ a.quote :: (a.value.toList ++ a.quote :: m) := by
    simp [word, quoted]
  rw [hsplit, wordsFrom_plain hkey, wordsFrom, if_pos a.isQuote_quote,
    wordsFrom_quoted a.quote_notMem]
  simp [word, quoted]

/-- The word is read as the argument that it writes. -/
theorem assignment?_word : assignment? a.word = some (a.key.toList, a.quoted) :=
  assignment?_eq_some_iff.mpr ⟨rfl, a.toList_key_ne_nil, a.isWordChar_of_mem⟩

end Assignment

/-! ### Lines -/

/-- A line of arguments, each with what stands behind it. -/
def line (lead : List Char) (l : List (Assignment × List Char)) : List Char :=
  lead ++ l.flatMap fun e => e.1.word ++ e.2

variable {lead : List Char} {args : List (Assignment × List Char)}

/-- **The words of a line are those it was written from.** -/
theorem words_line (hlead : ∀ c ∈ lead, Text.isBlank c = true)
    (hgap : ∀ e ∈ args, ∀ c ∈ e.2, Text.isBlank c = true)
    (hbetween : ∀ e ∈ args.dropLast, e.2 ≠ []) :
    words (line lead args) = args.map fun e => e.1.word := by
  rw [line, words_append_of_blank hlead]
  induction args with
  | nil => rfl
  | cons e args ih =>
    rw [List.forall_mem_cons] at hgap
    have hword : finish e.1.word.reverse = [e.1.word] := finish_reverse (by simp [Assignment.word])
    rw [List.flatMap_cons, words, List.append_assoc, e.1.wordsFrom_word, List.map_cons]
    cases args with
    | nil => rw [List.flatMap_nil, List.append_nil, wordsFrom_blanks hgap.1, hword, List.map_nil]
    | cons e' args =>
      rw [List.dropLast_cons_cons, List.forall_mem_cons] at hbetween
      rw [wordsFrom_gap hgap.1 hbetween.1, hword, ih hgap.2 hbetween.2, List.singleton_append]

/-- Each word assigns what it was written from. -/
theorem assignments_words (args : List (Assignment × List Char)) :
    assignments (args.map fun e => e.1.word) = args.map fun e => (e.1.key, .text e.1.value) := by
  rw [assignments, List.filterMap_map, ← List.filterMap_eq_map]
  congr 1
  funext e
  simp [e.1.assignment?_word, e.1.unquote_quoted]

theorem leftovers_words (args : List (Assignment × List Char)) :
    leftovers (args.map fun e => e.1.word) = [] := by
  rw [leftovers, List.filter_eq_nil_iff]
  intro w hw
  obtain ⟨e, -, rfl⟩ := List.mem_map.mp hw
  simp [e.1.assignment?_word]

theorem lookup_map_key (l : List (Assignment × List Char)) (key : String) :
    (l.map fun e => (e.1.key, Yaml.Value.text e.1.value)).lookup key =
      (l.find? fun e => e.1.key = key).map fun e => .text e.1.value := by
  induction l with
  | nil => rfl
  | cons e l ih =>
    rw [List.map_cons, TextMap.lookup_cons, ih]
    by_cases hkey : key = e.1.key
    · rw [if_pos hkey, List.find?_cons_of_pos (by simp [hkey])]
      rfl
    · rw [if_neg hkey, List.find?_cons_of_neg (by simp [Ne.symm hkey])]

/-- **Arguments written on a line are read back.**  Blanks may stand before the first and behind the
last one, and must stand between any two.  Each key then has the value of the last argument that
was written with it, and there are no other keys. -/
theorem parse_line (hlead : ∀ c ∈ lead, Text.isBlank c = true)
    (hgap : ∀ e ∈ args, ∀ c ∈ e.2, Text.isBlank c = true) (hbetween : ∀ e ∈ args.dropLast, e.2 ≠ [])
    (key : String) :
    (parse (String.ofList (line lead args))).get? key =
      (args.reverse.find? fun e => e.1.key = key).map fun e => .text e.1.value := by
  have hparse : parse (String.ofList (line lead args)) =
      TextMap.ofList (args.map fun e => (e.1.key, .text e.1.value)) := by
    rw [parse, String.toList_ofList, words_line hlead hgap hbetween, assignments_words,
      leftovers_words]
    rfl
  rw [hparse, TextMap.ofList, TextMap.get?_insertAll, TextMap.get?_empty, Option.or_none,
    ← List.map_reverse, lookup_map_key]

/-- A recipient that is written twice, and a subject with blanks, an equals sign and quotes in
it. -/
def mailArgs : List (Assignment × List Char) :=
  [(⟨"to", "x@evil.org", by decide, List.all_eq_true.mp (by decide), by decide⟩, ['\t', '\n']),
    (⟨"subject", "a \"b\"\nc=d", by decide, List.all_eq_true.mp (by decide), by decide⟩, [' ']),
    (⟨"to", "it's", by decide, List.all_eq_true.mp (by decide), by decide⟩, [])]

theorem parse_line_mailArgs :
    (∀ c ∈ [' '], Text.isBlank c = true) ∧ (∀ e ∈ mailArgs, ∀ c ∈ e.2, Text.isBlank c = true) ∧
      (∀ e ∈ mailArgs.dropLast, e.2 ≠ []) ∧
        line [' '] mailArgs = " to=\"x@evil.org\"\t\nsubject='a \"b\"\nc=d' to=\"it's\"".toList ∧
          (parse (String.ofList (line [' '] mailArgs))).get? "subject" =
            some (.text "a \"b\"\nc=d") ∧
          (parse (String.ofList (line [' '] mailArgs))).get? "to" = some (.text "it's") := by
  have hlead : ∀ c ∈ [' '], Text.isBlank c = true := List.all_eq_true.mp rfl
  have hblanks : ∀ e ∈ mailArgs, e.2.all Text.isBlank = true := by decide
  have hgap : ∀ e ∈ mailArgs, ∀ c ∈ e.2, Text.isBlank c = true :=
    fun e he => List.all_eq_true.mp (hblanks e he)
  have hbetween : ∀ e ∈ mailArgs.dropLast, e.2 ≠ [] := by decide
  exact ⟨hlead, hgap, hbetween, by decide, parse_line hlead hgap hbetween "subject",
    parse_line hlead hgap hbetween "to"⟩

end FreeForm

end PlaybookPolicy
