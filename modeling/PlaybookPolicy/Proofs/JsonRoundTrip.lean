import Mathlib.Data.List.TakeDrop
import Mathlib.Tactic.Tauto
import PlaybookPolicy.Json.Parser
import PlaybookPolicy.Json.Printer
import PlaybookPolicy.Proofs.NumberText

/-!
# Written JSON reads back

The reader undoes the writer on every datum without doubles, whatever characters its texts hold.
Texts, booleans and the shape come back as they were.  An integer comes back as itself if it fits
sixty-four bits; a larger one comes back as the double that its numeral denotes.  Doubles themselves
are left out: no word of JSON stands for those that are not numbers.

The fuel of the reader is the length of the text.  Every value inside a written value is shorter
than the value, so the induction over the datum carries the bound along.

## Main definitions

* `integerAsRead` — what a written integer is read as.
* `EndsNumeral` — a text that does not continue a numeral.
* `asRead?` — what a written datum is read as, unless there is a double in it.

## Main results

* `scanText_flatMap_escaped` — a quoted text reads back.
* `number?_toString` — a written integer reads back.
* `scanValue_writeChars` — a written value reads back, before any text that ends a numeral.
* `read?_write` — **a written datum reads back.**
* `le_toNat_of_mem_writeChars` — a written datum holds no control characters, so it stays on a line.
-/

namespace PlaybookPolicy.Json

/-! ### Quoted texts -/

section
variable {l s r : List Char}

theorem scanText_plain {c : Char} (hquote : c ≠ '"') (hescape : c ≠ '\\')
    (hcontrol : 0x20 ≤ c.toNat) (hl : scanText l = some (s, r)) :
    scanText (c :: l) = some (c :: s, r) := by
  have hforbidden : ¬(decide (c.toNat < 0x20) || c == '\\') = true := by
    simp [hescape]
    omega
  rw [scanText.eq_6 c l (fun h => hquote h) (fun _ _ _ _ _ h _ => hescape h)
    (fun _ _ h _ => hescape h), if_neg hforbidden, hl]
  rfl

theorem scanText_short {c d : Char} (hc : scanText.simpleEscape? c = some d) (hu : c ≠ 'u')
    (hl : scanText l = some (s, r)) : scanText ('\\' :: c :: l) = some (d :: s, r) := by
  rw [scanText.eq_5 c l (fun _ _ _ _ _ h _ => hu h)]
  simp only [hc, hl, Option.map_some]

theorem hex4?_hexDigit : ∀ n < 0x20,
    hex4? '0' '0' (hexDigit (n / 16)) (hexDigit (n % 16)) = some n := by
  decide

/-- A four-figure code, before a text that can be read. -/
theorem scanText_code {n : Nat} (hn : n < 0x20) (hl : scanText l = some (s, r)) :
    scanText ('\\' :: 'u' :: '0' :: '0' :: hexDigit (n / 16) :: hexDigit (n % 16) :: l)
      = some (Char.ofNat n :: s, r) := by
  have hcode := hex4?_hexDigit n hn
  have hunit : scanText.unit n = Char.ofNat n := by
    rw [scanText.unit, if_neg (by omega)]
  by_cases hnext : ∃ e f g h m, l = '\\' :: 'u' :: e :: f :: g :: h :: m
  · obtain ⟨e, f, g, h, m, rfl⟩ := hnext
    rw [scanText.eq_3 _ _ _ _ n e f g h m hcode]
    cases hlow : hex4? e f g h with
    | none =>
      rw [scanText.eq_2 _ _ _ _ _ hlow] at hl
      cases hl
    | some low =>
      -- a control character is no half of a surrogate pair
      simp only
      rw [if_neg (by omega), hl, Option.map_some, hunit]
  · rw [scanText.eq_4 _ _ _ _ l n hcode (fun e f g h m hl => hnext ⟨e, f, g, h, m, hl⟩), hl,
      Option.map_some, hunit]

theorem scanText_escaped (c : Char) (hl : scanText l = some (s, r)) :
    scanText (escaped c ++ l) = some (c :: s, r) := by
  unfold escaped
  split
  · exact scanText_short rfl (by decide) hl
  · exact scanText_short rfl (by decide) hl
  · exact scanText_short rfl (by decide) hl
  · exact scanText_short rfl (by decide) hl
  · exact scanText_short rfl (by decide) hl
  · exact scanText_short rfl (by decide) hl
  · exact scanText_short rfl (by decide) hl
  · next hquote hescape _ _ _ _ _ =>
    split
    · next hcontrol =>
      have h := scanText_code hcontrol hl
      rw [Char.ofNat_toNat] at h
      exact h
    · next hcontrol => exact scanText_plain hquote hescape (by omega) hl

end

/-- **A quoted text reads back.** -/
theorem scanText_flatMap_escaped (s rest : List Char) :
    scanText (s.flatMap escaped ++ '"' :: rest) = some (s, rest) := by
  induction s with
  | nil => exact scanText.eq_1 rest
  | cons c s ih =>
    rw [List.flatMap_cons, List.append_assoc]
    exact scanText_escaped c ih

/-! ### Integers -/

theorem head?_natDigits_ne_zero : ∀ {n : Nat}, 0 < n → (natDigits n).head? ≠ some '0' := by
  intro n
  induction n using Nat.strongRecOn with
  | ind n ih =>
    intro hn
    rw [natDigits, Nat.toDigits_eq_if (by decide)]
    split
    · simp
      omega
    · have h := ih (n / 10) (by omega) (by omega)
      rw [List.head?_append_of_ne_nil _ Nat.toDigits_ne_nil]
      exact h

theorem digitValue_of_isDigit {c : Char} (h : c.isDigit = true) :
    digitValue c = c.toNat - '0'.toNat ∧ digitValue c < 10 := by
  have hvalue : digitValue c = c.toNat - '0'.toNat := by rw [digitValue, if_pos h]
  rw [Char.isDigit_iff_toNat] at h
  refine ⟨hvalue, ?_⟩
  rw [hvalue]
  have hzero : '0'.toNat = 48 := rfl
  have hnine : '9'.toNat = 57 := rfl
  omega

theorem foldl_digitValue : ∀ {l : List Char} (init : Nat), (∀ c ∈ l, c.isDigit = true) →
    l.foldl (fun n c => n * 10 + digitValue c) init = Nat.ofDigitChars 10 l init := by
  intro l
  induction l with
  | nil =>
    intro init _
    rw [List.foldl_nil, Nat.ofDigitChars_nil]
  | cons c l ih =>
    intro init h
    rw [List.forall_mem_cons] at h
    rw [List.foldl_cons, Nat.ofDigitChars_cons, ih _ h.2, (digitValue_of_isDigit h.1).1,
      Nat.mul_comm init]

theorem natOfDigits?_natDigits (n : Nat) : natOfDigits? 10 (natDigits n) = some n := by
  have hdigit : ∀ c ∈ natDigits n, c.isDigit = true := fun c hc =>
    Nat.isDigit_of_mem_toDigits (by decide) (by decide) hc
  have hall : (natDigits n).all (digitValue · < 10) = true := by
    rw [List.all_eq_true]
    intro c hc
    exact decide_eq_true (digitValue_of_isDigit (hdigit c hc)).2
  have hne : (natDigits n).isEmpty = false := by
    rw [List.isEmpty_eq_false_iff]
    exact Nat.toDigits_ne_nil
  have hdigits : (!(natDigits n).isEmpty && (natDigits n).all (digitValue · < 10)) = true := by
    rw [hne, hall]
    rfl
  rw [natOfDigits?, if_pos hdigits, foldl_digitValue 0 hdigit]
  exact congrArg some Nat.ofDigitChars_ten_toDigits

/-- What a written integer is read as: itself if it fits sixty-four bits, and a double otherwise. -/
def integerAsRead : Int → Datum
  | .ofNat n => if n < Nat.pow 2 64 then .int n else .float (Decimal.toFloat ⟨n, 0⟩)
  | .negSucc n =>
    if n < Nat.pow 2 63 then .int (.negSucc n) else .float (-Decimal.toFloat ⟨n + 1, 0⟩)

theorem integerAsRead_natCast {n : Nat} (h : n < Nat.pow 2 64) : integerAsRead n = .int n :=
  if_pos h

/-- A written natural number has no leading zero. -/
theorem leadingZero_natDigits (n : Nat) :
    (decide ((natDigits n).length > 1) && (natDigits n).head? == some '0' &&
      ((natDigits n).drop 1).head?.any Char.isDigit) = false := by
  rcases Nat.eq_zero_or_pos n with rfl | hn
  · rfl
  · simp [head?_natDigits_ne_zero hn]

theorem head?_natDigits_ne_minus (n : Nat) : (natDigits n).head? ≠ some '-' := by
  intro h
  have hmem : '-' ∈ natDigits n := List.mem_of_head? h
  have hdigit := Nat.isDigit_of_mem_toDigits (by decide) (by decide) hmem
  cases hdigit

theorem number?_natDigits (n : Nat) :
    number? (natDigits n) = some (integerAsRead (Int.ofNat n)) := by
  have hhead := head?_natDigits_ne_minus n
  unfold number?
  split
  next negative body hsign =>
    split at hsign
    · next r hl =>
      rw [hl] at hhead
      exact absurd rfl hhead
    · cases hsign
      rw [leadingZero_natDigits, natOfDigits?_natDigits]
      show (if (!false && decide (n < Nat.pow 2 64)) = true then some (Datum.int n)
        else some (.float (Decimal.toFloat ⟨n, 0⟩))) = _
      rw [integerAsRead]
      by_cases hn : n < Nat.pow 2 64
      · have hfits : (!false && decide (n < Nat.pow 2 64)) = true := decide_eq_true hn
        rw [if_pos hn, if_pos hfits]
      · have hfits : ¬(!false && decide (n < Nat.pow 2 64)) = true := fun h =>
          hn (of_decide_eq_true h)
        rw [if_neg hn, if_neg hfits]

theorem number?_minus_natDigits (n : Nat) :
    number? ('-' :: natDigits (n + 1)) = some (integerAsRead (Int.negSucc n)) := by
  simp only [number?, leadingZero_natDigits, natOfDigits?_natDigits]
  show (if (true && decide (n + 1 ≤ Nat.pow 2 63)) = true then
      some (Datum.int (-Int.ofNat (n + 1)))
    else some (.float (-Decimal.toFloat ⟨n + 1, 0⟩))) = _
  rw [integerAsRead]
  by_cases hn : n < Nat.pow 2 63
  · have hfits : (true && decide (n + 1 ≤ Nat.pow 2 63)) = true := decide_eq_true hn
    rw [if_pos hn, if_pos hfits]
    rfl
  · have hfits : ¬(true && decide (n + 1 ≤ Nat.pow 2 63)) = true := fun h =>
      hn (of_decide_eq_true h)
    rw [if_neg hn, if_neg hfits]

/-- **A written integer reads back**, if it fits. -/
theorem number?_toString (n : Int) : number? (toString n).toList = some (integerAsRead n) := by
  cases n with
  | ofNat n => rw [toList_toString_ofNat, number?_natDigits]
  | negSucc n => rw [toList_toString_negSucc, number?_minus_natDigits]

/-! ### Scanning -/

/-- The character is white space between values. -/
def isSpace (c : Char) : Bool :=
  c == ' ' || c == '\n' || c == '\r' || c == '\t'

theorem skipSpace_cons {c : Char} (h : isSpace c = false) (l : List Char) :
    skipSpace (c :: l) = c :: l := by
  have hneg : ¬isSpace c = true := by
    rw [h]
    exact Bool.false_ne_true
  exact List.dropWhile_cons_of_neg hneg

/-- What follows does not continue a numeral. -/
def EndsNumeral (rest : List Char) : Prop :=
  ∀ c, rest.head? = some c → isNumeralChar c = false

theorem endsNumeral_cons {c : Char} (h : isNumeralChar c = false) (rest : List Char) :
    EndsNumeral (c :: rest) := by
  intro d hd
  cases hd
  exact h

theorem span_append_of_endsNumeral {l rest : List Char} (hl : ∀ c ∈ l, isNumeralChar c = true)
    (hrest : EndsNumeral rest) : (l ++ rest).span isNumeralChar = (l, rest) := by
  have hempty : rest.takeWhile isNumeralChar = [] ∧ rest.dropWhile isNumeralChar = rest := by
    cases rest with
    | nil => exact ⟨rfl, rfl⟩
    | cons c rest =>
      have hc : ¬isNumeralChar c = true := by
        rw [hrest c rfl]
        exact Bool.false_ne_true
      exact ⟨List.takeWhile_cons_of_neg hc, List.dropWhile_cons_of_neg hc⟩
  rw [List.span_eq_takeWhile_dropWhile, List.takeWhile_append_of_pos hl, hempty.1,
    List.dropWhile_append_of_pos hl, hempty.2, List.append_nil]

theorem isNumeralChar_of_mem_toString {n : Int} {c : Char} (h : c ∈ (toString n).toList) :
    isNumeralChar c = true := by
  have hc := mem_toString_int h
  simp only [PlaybookPolicy.isNumeralChar, Bool.or_eq_true] at hc
  simp only [isNumeralChar, Bool.or_eq_true]
  tauto

/-- A written integer is not empty. -/
theorem exists_cons_toString (n : Int) : ∃ c l, (toString n).toList = c :: l ∧
    isNumeralChar c = true := by
  cases hl : (toString n).toList with
  | nil => exact absurd (String.toList_eq_nil_iff.mp hl) (Yaml.intText_ne_empty n)
  | cons c l =>
    have hc : c ∈ (toString n).toList := by
      rw [hl]
      exact List.mem_cons_self
    exact ⟨c, l, rfl, isNumeralChar_of_mem_toString hc⟩

theorem isSpace_of_isNumeralChar {c : Char} (h : isNumeralChar c = true) : isSpace c = false := by
  have hne : ∀ d, isNumeralChar d = false → c ≠ d := by
    rintro d hd rfl
    rw [h] at hd
    cases hd
  simp [isSpace, hne ' ' rfl, hne '\n' rfl, hne '\r' rfl, hne '\t' rfl]

theorem scanValue_toString (n : Int) (fuel : Nat) {rest : List Char} (hrest : EndsNumeral rest) :
    scanValue (fuel + 1) ((toString n).toList ++ rest) = some (integerAsRead n, rest) := by
  have hnumber := number?_toString n
  have hspan := span_append_of_endsNumeral (fun c => isNumeralChar_of_mem_toString (n := n)) hrest
  obtain ⟨c, l, hl, hc⟩ := exists_cons_toString n
  rw [hl] at hnumber
  rw [hl, List.cons_append] at hspan ⊢
  have hskip : skipSpace (c :: (l ++ rest)) = c :: (l ++ rest) :=
    skipSpace_cons (isSpace_of_isNumeralChar hc) _
  have hne : ∀ d, isNumeralChar d = false → c ≠ d := by
    rintro d hd rfl
    rw [hc] at hd
    cases hd
  -- the first character begins none of the other values
  rw [scanValue, hskip]
  split
  · next h => exact absurd (List.cons.inj h).1 (hne _ (by decide))
  · next h => exact absurd (List.cons.inj h).1 (hne _ (by decide))
  · next h => exact absurd (List.cons.inj h).1 (hne _ (by decide))
  · next h => exact absurd (List.cons.inj h).1 (hne _ (by decide))
  · next h => exact absurd (List.cons.inj h).1 (hne _ (by decide))
  · next h => exact absurd (List.cons.inj h).1 (hne _ (by decide))
  · rw [hspan]
    simp only [hnumber, Option.map_some]

theorem scanValue_null (fuel : Nat) (rest : List Char) :
    scanValue (fuel + 1) (writeChars .null ++ rest) = some (.null, rest) :=
  rfl

theorem scanValue_bool (b : Bool) (fuel : Nat) (rest : List Char) :
    scanValue (fuel + 1) (writeChars (.bool b) ++ rest) = some (.bool b, rest) := by
  cases b with
  | true => rfl
  | false => rfl

theorem quoted_append (s : String) (rest : List Char) :
    quoted s ++ rest = '"' :: (s.toList.flatMap escaped ++ '"' :: rest) := by
  simp [quoted]

theorem scanValue_quote (fuel : Nat) (r : List Char) :
    scanValue (fuel + 1) ('"' :: r) =
      (scanText r).map fun (s, r) => (.text (String.ofList s), r) :=
  rfl

theorem scanValue_quoted (s : String) (fuel : Nat) (rest : List Char) :
    scanValue (fuel + 1) (quoted s ++ rest) = some (.text s, rest) := by
  rw [quoted_append, scanValue_quote, scanText_flatMap_escaped, Option.map_some]
  simp only [String.ofList_toList]

/-! ### Lists and tables -/

section
variable {fuel : Nat} {d : Datum} {l r : List Char}

theorem scanItems_last (h : scanValue fuel l = some (d, ']' :: r)) :
    scanItems (fuel + 1) l = some ([d], r) := by
  simp only [scanItems, h]
  rw [skipSpace_cons rfl]
  rfl

theorem scanItems_comma {items : List Datum} {l' : List Char}
    (h : scanValue fuel l = some (d, ',' :: l')) (hl : scanItems fuel l' = some (items, r)) :
    scanItems (fuel + 1) l = some (d :: items, r) := by
  simp only [scanItems, h]
  rw [skipSpace_cons rfl]
  simp only [hl, Option.map_some]

theorem scanValue_bracket (fuel : Nat) (r : List Char) :
    scanValue (fuel + 1) ('[' :: r) =
      match skipSpace r with
      | ']' :: r => some (.list [], r)
      | r => (scanItems fuel r).map fun (items, r) => (.list items, r) :=
  rfl

theorem scanValue_list_nil (fuel : Nat) (r : List Char) :
    scanValue (fuel + 1) ('[' :: ']' :: r) = some (.list [], r) := by
  rw [scanValue_bracket, skipSpace_cons rfl]
  rfl

/-- A list with items, which begin with something else than the end of a list. -/
theorem scanValue_list {items : List Datum} {c : Char} (hspace : isSpace c = false) (hc : c ≠ ']')
    (hl : scanItems fuel (c :: l) = some (items, r)) :
    scanValue (fuel + 1) ('[' :: c :: l) = some (.list items, r) := by
  rw [scanValue_bracket, skipSpace_cons hspace]
  split
  · next h => exact absurd (List.cons.inj h).1 hc
  · rw [hl]
    rfl

theorem scanEntries_last {k : String} (h : scanValue fuel l = some (d, '}' :: r)) :
    scanEntries (fuel + 1) (quoted k ++ ':' :: l) = some ([(k, d)], r) := by
  rw [quoted_append, scanEntries, skipSpace_cons rfl]
  simp only [scanText_flatMap_escaped, String.ofList_toList]
  rw [skipSpace_cons rfl]
  simp only [h]
  rw [skipSpace_cons rfl]
  rfl

theorem scanEntries_comma {k : String} {entries : List (String × Datum)} {l' : List Char}
    (h : scanValue fuel l = some (d, ',' :: l')) (hl : scanEntries fuel l' = some (entries, r)) :
    scanEntries (fuel + 1) (quoted k ++ ':' :: l) = some ((k, d) :: entries, r) := by
  rw [quoted_append, scanEntries, skipSpace_cons rfl]
  simp only [scanText_flatMap_escaped, String.ofList_toList]
  rw [skipSpace_cons rfl]
  simp only [h]
  rw [skipSpace_cons rfl]
  simp only [hl, Option.map_some]

theorem scanValue_brace (fuel : Nat) (r : List Char) :
    scanValue (fuel + 1) ('{' :: r) =
      match skipSpace r with
      | '}' :: r => some (.table [], r)
      | r => (scanEntries fuel r).map fun (entries, r) => (.table entries, r) :=
  rfl

theorem scanValue_table_nil (fuel : Nat) (r : List Char) :
    scanValue (fuel + 1) ('{' :: '}' :: r) = some (.table [], r) := by
  rw [scanValue_brace, skipSpace_cons rfl]
  rfl

/-- A table with entries, which begin with something else than the end of a table. -/
theorem scanValue_table {entries : List (String × Datum)} {c : Char} (hspace : isSpace c = false)
    (hc : c ≠ '}') (hl : scanEntries fuel (c :: l) = some (entries, r)) :
    scanValue (fuel + 1) ('{' :: c :: l) = some (.table entries, r) := by
  rw [scanValue_brace, skipSpace_cons hspace]
  split
  · next h => exact absurd (List.cons.inj h).1 hc
  · rw [hl]
    rfl

end

/-! ### Values -/

mutual

/-- What a written datum is read as, unless there is a double in it. -/
def asRead? : Datum → Option Datum
  | .null => some .null
  | .bool b => some (.bool b)
  | .int n => some (integerAsRead n)
  | .float _ => none
  | .text s => some (.text s)
  | .list items => (itemsAsRead? items).map .list
  | .table entries => (entriesAsRead? entries).map .table
  | .scattered entries => (entriesAsRead? entries).map .table

/-- What written items are read as. -/
def itemsAsRead? : List Datum → Option (List Datum)
  | [] => some []
  | d :: l =>
    match asRead? d, itemsAsRead? l with
    | some e, some m => some (e :: m)
    | _, _ => none

/-- What written entries are read as. -/
def entriesAsRead? : List (String × Datum) → Option (List (String × Datum))
  | [] => some []
  | (k, d) :: l =>
    match asRead? d, entriesAsRead? l with
    | some e, some m => some ((k, e) :: m)
    | _, _ => none

end

theorem itemsAsRead?_cons_eq_some_iff {d : Datum} {l m : List Datum} :
    itemsAsRead? (d :: l) = some m ↔
      ∃ e n, asRead? d = some e ∧ itemsAsRead? l = some n ∧ m = e :: n := by
  rw [itemsAsRead?]
  cases asRead? d with
  | none => simp
  | some e =>
    cases itemsAsRead? l with
    | none => simp
    | some n => simp [eq_comm]

theorem entriesAsRead?_cons_eq_some_iff {k : String} {d : Datum} {l m : List (String × Datum)} :
    entriesAsRead? ((k, d) :: l) = some m ↔
      ∃ e n, asRead? d = some e ∧ entriesAsRead? l = some n ∧ m = (k, e) :: n := by
  rw [entriesAsRead?]
  cases asRead? d with
  | none => simp
  | some e =>
    cases entriesAsRead? l with
    | none => simp
    | some n => simp [eq_comm]

/-- A written value begins with a character that is neither white space nor the end of a list. -/
theorem exists_cons_writeChars {d e : Datum} (h : asRead? d = some e) :
    ∃ c l, writeChars d = c :: l ∧ isSpace c = false ∧ c ≠ ']' := by
  cases d with
  | null => exact ⟨'n', _, rfl, rfl, by decide⟩
  | bool b =>
    cases b with
    | true => exact ⟨'t', _, rfl, rfl, by decide⟩
    | false => exact ⟨'f', _, rfl, rfl, by decide⟩
  | int n =>
    obtain ⟨c, l, hl, hc⟩ := exists_cons_toString n
    refine ⟨c, l, by rw [writeChars, hl], isSpace_of_isNumeralChar hc, ?_⟩
    rintro rfl
    cases hc
  | float x => simp [asRead?] at h
  | text s => exact ⟨'"', _, rfl, rfl, by decide⟩
  | list items => exact ⟨'[', _, rfl, rfl, by decide⟩
  | table entries => exact ⟨'{', _, rfl, rfl, by decide⟩
  | scattered entries => exact ⟨'{', _, rfl, rfl, by decide⟩

theorem exists_cons_writeItems {d e : Datum} (h : asRead? d = some e) (items : List Datum) :
    ∃ c l, writeItems (d :: items) = c :: l ∧ isSpace c = false ∧ c ≠ ']' := by
  obtain ⟨c, l, hl, hspace, hc⟩ := exists_cons_writeChars h
  cases items with
  | nil => exact ⟨c, l, by rw [writeItems, hl], hspace, hc⟩
  | cons d' items => exact ⟨c, _, by rw [writeItems, hl, List.cons_append], hspace, hc⟩

theorem exists_cons_writeEntries (k : String) (d : Datum) (es : List (String × Datum)) :
    ∃ l, writeEntries ((k, d) :: es) = '"' :: l := by
  cases es with
  | nil => exact ⟨_, rfl⟩
  | cons e es => exact ⟨_, rfl⟩

theorem scanValue_writeEntries {k : String} {d : Datum} {es m : List (String × Datum)} {fuel : Nat}
    {rest : List Char}
    (h : scanEntries fuel (writeEntries ((k, d) :: es) ++ '}' :: rest) = some (m, rest)) :
    scanValue (fuel + 1) (writeChars (.table ((k, d) :: es)) ++ rest) = some (.table m, rest) := by
  obtain ⟨l, hl⟩ := exists_cons_writeEntries k d es
  have hwrite : writeChars (.table ((k, d) :: es)) ++ rest
      = '{' :: (writeEntries ((k, d) :: es) ++ '}' :: rest) := by
    simp [writeChars]
  rw [hwrite]
  rw [hl] at h ⊢
  exact scanValue_table rfl (by decide) h

mutual

/-- **A written value reads back.** -/
theorem scanValue_writeChars : ∀ (d e : Datum), asRead? d = some e →
    ∀ (fuel : Nat) (rest : List Char), (writeChars d).length ≤ fuel → EndsNumeral rest →
      scanValue fuel (writeChars d ++ rest) = some (e, rest)
  | .null, _, h, fuel + 1, rest, _, _ => by
    cases h
    exact scanValue_null fuel rest
  | .bool b, _, h, fuel + 1, rest, _, _ => by
    cases h
    exact scanValue_bool b fuel rest
  | .int n, _, h, fuel + 1, rest, _, hrest => by
    cases h
    exact scanValue_toString n fuel hrest
  | .text s, _, h, fuel + 1, rest, _, _ => by
    cases h
    exact scanValue_quoted s fuel rest
  | .list [], _, h, fuel + 1, rest, _, _ => by
    cases h
    exact scanValue_list_nil fuel rest
  | .list (d :: l), _, h, fuel + 1, rest, hfuel, _ => by
    obtain ⟨m, hm, rfl⟩ := Option.map_eq_some_iff.mp h
    have hlen : (writeItems (d :: l)).length < fuel := by
      simp only [writeChars, List.length_cons, List.length_append, List.length_nil] at hfuel
      omega
    have hitems := scanItems_writeItems d l m hm fuel rest hlen
    obtain ⟨e, n, he, -⟩ := itemsAsRead?_cons_eq_some_iff.mp hm
    obtain ⟨c, r, hr, hspace, hc⟩ := exists_cons_writeItems he l
    have hwrite : writeChars (.list (d :: l)) ++ rest
        = '[' :: (writeItems (d :: l) ++ ']' :: rest) := by
      simp [writeChars]
    rw [hwrite]
    rw [hr] at hitems ⊢
    exact scanValue_list hspace hc hitems
  | .table [], _, h, fuel + 1, rest, _, _ => by
    cases h
    exact scanValue_table_nil fuel rest
  | .table ((k, d) :: es), _, h, fuel + 1, rest, hfuel, _ => by
    obtain ⟨m, hm, rfl⟩ := Option.map_eq_some_iff.mp h
    have hlen : (writeEntries ((k, d) :: es)).length < fuel := by
      simp only [writeChars, List.length_cons, List.length_append, List.length_nil] at hfuel
      omega
    exact scanValue_writeEntries (scanEntries_writeEntries k d es m hm fuel rest hlen)
  | .scattered [], _, h, fuel + 1, rest, _, _ => by
    cases h
    exact scanValue_table_nil fuel rest
  | .scattered ((k, d) :: es), _, h, fuel + 1, rest, hfuel, _ => by
    obtain ⟨m, hm, rfl⟩ := Option.map_eq_some_iff.mp h
    have hlen : (writeEntries ((k, d) :: es)).length < fuel := by
      simp only [writeChars, List.length_cons, List.length_append, List.length_nil] at hfuel
      omega
    exact scanValue_writeEntries (scanEntries_writeEntries k d es m hm fuel rest hlen)
  | d, _, h, 0, rest, hfuel, _ => by
    obtain ⟨c, l, hl, -⟩ := exists_cons_writeChars h
    rw [hl] at hfuel
    cases hfuel

theorem scanItems_writeItems : ∀ (d : Datum) (l m : List Datum), itemsAsRead? (d :: l) = some m →
    ∀ (fuel : Nat) (rest : List Char), (writeItems (d :: l)).length < fuel →
      scanItems fuel (writeItems (d :: l) ++ ']' :: rest) = some (m, rest)
  | d, [], m, h, fuel + 1, rest, hfuel => by
    obtain ⟨e, n, he, hn, rfl⟩ := itemsAsRead?_cons_eq_some_iff.mp h
    cases hn
    rw [writeItems] at hfuel ⊢
    exact scanItems_last
      (scanValue_writeChars d e he fuel _ (by omega) (endsNumeral_cons rfl _))
  | d, d' :: l, m, h, fuel + 1, rest, hfuel => by
    obtain ⟨e, n, he, hn, rfl⟩ := itemsAsRead?_cons_eq_some_iff.mp h
    rw [writeItems, List.length_append, List.length_cons] at hfuel
    rw [writeItems, List.append_assoc, List.cons_append]
    exact scanItems_comma
      (scanValue_writeChars d e he fuel _ (by omega) (endsNumeral_cons rfl _))
      (scanItems_writeItems d' l n hn fuel rest (by omega))

theorem scanEntries_writeEntries : ∀ (k : String) (d : Datum) (l m : List (String × Datum)),
    entriesAsRead? ((k, d) :: l) = some m →
    ∀ (fuel : Nat) (rest : List Char), (writeEntries ((k, d) :: l)).length < fuel →
      scanEntries fuel (writeEntries ((k, d) :: l) ++ '}' :: rest) = some (m, rest)
  | k, d, [], m, h, fuel + 1, rest, hfuel => by
    obtain ⟨e, n, he, hn, rfl⟩ := entriesAsRead?_cons_eq_some_iff.mp h
    cases hn
    rw [writeEntries, List.length_append, List.length_cons] at hfuel
    rw [writeEntries, List.append_assoc, List.cons_append]
    exact scanEntries_last
      (scanValue_writeChars d e he fuel _ (by omega) (endsNumeral_cons rfl _))
  | k, d, (k', d') :: l, m, h, fuel + 1, rest, hfuel => by
    obtain ⟨e, n, he, hn, rfl⟩ := entriesAsRead?_cons_eq_some_iff.mp h
    simp only [writeEntries, List.length_append, List.length_cons] at hfuel
    rw [writeEntries, List.append_assoc, List.cons_append, List.append_assoc, List.cons_append]
    exact scanEntries_comma
      (scanValue_writeChars d e he fuel _ (by omega) (endsNumeral_cons rfl _))
      (scanEntries_writeEntries k' d' l n hn fuel rest (by omega))

end

/-- **A written datum reads back.** -/
theorem read?_write {d e : Datum} (h : asRead? d = some e) : read? (write d) = some e := by
  have hscan := scanValue_writeChars d e h ((write d).length + 1) []
    (by rw [write, String.length_ofList]; omega) (fun c hc => by cases hc)
  rw [List.append_nil] at hscan
  rw [read?, write, String.toList_ofList] at *
  rw [hscan]
  rfl

/-! ### Control characters -/

theorem le_toNat_hexDigit : ∀ n < 0x20,
    0x20 ≤ (hexDigit (n / 16)).toNat ∧ 0x20 ≤ (hexDigit (n % 16)).toNat := by
  decide

/-- Control characters are always escaped. -/
theorem le_toNat_of_mem_escaped {c d : Char} (hd : d ∈ escaped c) : 0x20 ≤ d.toNat := by
  have hshort : ∀ {e : Char}, 0x20 ≤ e.toNat → d ∈ ['\\', e] → 0x20 ≤ d.toNat := by
    intro e he hd
    rcases List.mem_pair.mp hd with rfl | rfl
    · decide
    · exact he
  unfold escaped at hd
  split at hd
  · exact hshort (by decide) hd
  · exact hshort (by decide) hd
  · exact hshort (by decide) hd
  · exact hshort (by decide) hd
  · exact hshort (by decide) hd
  · exact hshort (by decide) hd
  · exact hshort (by decide) hd
  · split at hd
    · next hcontrol =>
      have hcode := le_toNat_hexDigit c.toNat hcontrol
      simp only [List.mem_cons, List.not_mem_nil, or_false] at hd
      rcases hd with rfl | rfl | rfl | rfl | rfl | rfl
      · decide
      · decide
      · decide
      · decide
      · exact hcode.1
      · exact hcode.2
    · next hcontrol =>
      rw [List.mem_singleton.mp hd]
      omega

theorem le_toNat_of_mem_quoted {s : String} {c : Char} (hc : c ∈ quoted s) : 0x20 ≤ c.toNat := by
  simp only [quoted, List.mem_cons, List.mem_append, List.mem_flatMap, List.not_mem_nil,
    or_false] at hc
  rcases hc with rfl | ⟨d, -, hc⟩ | rfl
  · decide
  · exact le_toNat_of_mem_escaped hc
  · decide

theorem le_toNat_of_isNumeralChar {c : Char} (hc : isNumeralChar c = true) : 0x20 ≤ c.toNat := by
  have hzero : '0'.toNat = 48 := rfl
  simp only [isNumeralChar, Bool.or_eq_true, Char.isDigit_iff_toNat, beq_iff_eq] at hc
  rcases hc with ((((hc | rfl) | rfl) | rfl) | rfl) | rfl
  · omega
  all_goals decide

theorem le_toNat_of_all {l : List Char} (h : (l.all fun c => decide (0x20 ≤ c.toNat)) = true)
    {c : Char} (hc : c ∈ l) : 0x20 ≤ c.toNat :=
  of_decide_eq_true (List.all_eq_true.mp h c hc)

mutual

/-- **A written value holds no control characters.** -/
theorem le_toNat_of_mem_writeChars : ∀ (d e : Datum), asRead? d = some e →
    ∀ c ∈ writeChars d, 0x20 ≤ c.toNat
  | .null, _, _, _, hc => le_toNat_of_all rfl hc
  | .bool true, _, _, _, hc => le_toNat_of_all (l := "true".toList) rfl hc
  | .bool false, _, _, _, hc => le_toNat_of_all (l := "false".toList) rfl hc
  | .int n, _, _, c, hc => le_toNat_of_isNumeralChar (isNumeralChar_of_mem_toString hc)
  | .float _, _, h, _, _ => by
    rw [asRead?] at h
    cases h
  | .text _, _, _, _, hc => le_toNat_of_mem_quoted hc
  | .list items, _, h, c, hc => by
    obtain ⟨m, hm, -⟩ := Option.map_eq_some_iff.mp h
    simp only [writeChars, List.mem_cons, List.mem_append, List.not_mem_nil, or_false] at hc
    rcases hc with rfl | hc | rfl
    · decide
    · exact le_toNat_of_mem_writeItems items m hm c hc
    · decide
  | .table entries, _, h, c, hc => by
    obtain ⟨m, hm, -⟩ := Option.map_eq_some_iff.mp h
    simp only [writeChars, List.mem_cons, List.mem_append, List.not_mem_nil, or_false] at hc
    rcases hc with rfl | hc | rfl
    · decide
    · exact le_toNat_of_mem_writeEntries entries m hm c hc
    · decide
  | .scattered entries, _, h, c, hc => by
    obtain ⟨m, hm, -⟩ := Option.map_eq_some_iff.mp h
    simp only [writeChars, List.mem_cons, List.mem_append, List.not_mem_nil, or_false] at hc
    rcases hc with rfl | hc | rfl
    · decide
    · exact le_toNat_of_mem_writeEntries entries m hm c hc
    · decide

theorem le_toNat_of_mem_writeItems : ∀ (l m : List Datum), itemsAsRead? l = some m →
    ∀ c ∈ writeItems l, 0x20 ≤ c.toNat
  | [], _, _, _, hc => by cases hc
  | [d], m, h, c, hc => by
    obtain ⟨e, n, he, -, -⟩ := itemsAsRead?_cons_eq_some_iff.mp h
    rw [writeItems] at hc
    exact le_toNat_of_mem_writeChars d e he c hc
  | d :: d' :: l, m, h, c, hc => by
    obtain ⟨e, n, he, hn, -⟩ := itemsAsRead?_cons_eq_some_iff.mp h
    rw [writeItems, List.mem_append, List.mem_cons] at hc
    rcases hc with hc | rfl | hc
    · exact le_toNat_of_mem_writeChars d e he c hc
    · decide
    · exact le_toNat_of_mem_writeItems (d' :: l) n hn c hc

theorem le_toNat_of_mem_writeEntries : ∀ (l m : List (String × Datum)),
    entriesAsRead? l = some m → ∀ c ∈ writeEntries l, 0x20 ≤ c.toNat
  | [], _, _, _, hc => by cases hc
  | [(k, d)], m, h, c, hc => by
    obtain ⟨e, n, he, -, -⟩ := entriesAsRead?_cons_eq_some_iff.mp h
    rw [writeEntries, List.mem_append, List.mem_cons] at hc
    rcases hc with hc | rfl | hc
    · exact le_toNat_of_mem_quoted hc
    · decide
    · exact le_toNat_of_mem_writeChars d e he c hc
  | (k, d) :: (k', d') :: l, m, h, c, hc => by
    obtain ⟨e, n, he, hn, -⟩ := entriesAsRead?_cons_eq_some_iff.mp h
    rw [writeEntries, List.mem_append, List.mem_cons, List.mem_append, List.mem_cons] at hc
    rcases hc with hc | rfl | hc | rfl | hc
    · exact le_toNat_of_mem_quoted hc
    · decide
    · exact le_toNat_of_mem_writeChars d e he c hc
    · decide
    · exact le_toNat_of_mem_writeEntries ((k', d') :: l) n hn c hc

end

end PlaybookPolicy.Json
