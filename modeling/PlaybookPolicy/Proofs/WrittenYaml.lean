import PlaybookPolicy.Proofs.NumberText
import PlaybookPolicy.Yaml.Printer

/-!
# Marks in written YAML

Writing a value only adds to the page: what stands there stays.  So the marks that collections and
tags begin with are still there when the value is written, whatever stands inside it.

## Main definitions

* `Page.Parted` — a blank was written first.

## Main results

* `suffix_writeValue` — writing a value adds to the page.
* `parted_writeValue` — behind a mark, a value is written behind a blank.
* `mem_writeValue_of_tag`, `mem_writeValue_mapping` — a written tagged value holds an exclamation
  mark, and a written mapping a colon or a brace.
* `reverse_writeValue_sequence` — a written sequence with items begins with a dash and a blank.
-/

namespace PlaybookPolicy.Yaml

/-! ### Adding to a page -/

namespace Page

theorem suffix_put (p : Page) (l : List Char) : p.text <:+ (p.put l).text :=
  List.suffix_append _ _

theorem suffix_endLine (p : Page) (c : Char) : p.text <:+ (p.endLine c).text :=
  List.suffix_cons _ _

theorem suffix_indentTo (p : Page) (indent : Nat) : p.text <:+ (p.indentTo indent).text := by
  unfold indentTo
  split
  · exact (suffix_endLine p '\n').trans (suffix_put _ _)
  · exact suffix_put _ _

theorem suffix_space (p : Page) : p.text <:+ p.space.text := by
  unfold space
  split
  · exact List.suffix_refl _
  · exact suffix_put _ _

theorem suffix_glue (p : Page) (l : List Char) : p.text <:+ (p.glue l).text :=
  suffix_put p l

theorem suffix_word (p : Page) (l : List Char) : p.text <:+ (p.word l).text :=
  (suffix_space p).trans (suffix_glue _ _)

theorem suffix_entry (p : Page) (c : Char) : p.text <:+ (p.entry c).text :=
  (suffix_space p).trans (suffix_put _ _)

theorem suffix_double (p : Page) (l : List Char) : p.text <:+ (p.double l).text :=
  ((suffix_word p _).trans (suffix_put _ _)).trans (suffix_glue _ _)

theorem suffix_lines (indent : Nat) (form : Char → List Char) :
    ∀ (l : List Char) (broken : Bool) (p : Page), p.text <:+ (lines indent form broken l p).text := by
  intro l
  induction l with
  | nil => intro broken p; exact List.suffix_refl _
  | cons c l ih =>
    intro broken p
    rw [lines]
    split
    · refine List.IsSuffix.trans ?_ (ih true _)
      exact suffix_endLine p c
    · refine List.IsSuffix.trans ?_ (ih false _)
      split
      · exact (suffix_indentTo p indent).trans (suffix_put _ _)
      · exact suffix_put p _

theorem suffix_single (p : Page) (indent : Nat) (l : List Char) :
    p.text <:+ (p.single indent l).text := by
  rw [single]
  refine List.IsSuffix.trans ?_ (suffix_glue _ _)
  split
  · exact ((suffix_word p _).trans (suffix_lines _ _ _ _ _)).trans (suffix_indentTo _ _)
  · exact (suffix_word p _).trans (suffix_lines _ _ _ _ _)

theorem suffix_literal (p : Page) (indent : Nat) (l : List Char) :
    p.text <:+ (p.literal indent l).text := by
  rw [literal]
  refine List.IsSuffix.trans ?_ (suffix_lines _ _ _ _ _)
  exact (suffix_word p _).trans (suffix_endLine _ _)

theorem suffix_scalar (p : Page) (indent : Nat) (style : ScalarStyle) (s : String) :
    p.text <:+ (p.scalar indent style s).text := by
  cases style with
  | plain =>
    rw [scalar]
    split
    · exact suffix_glue _ _
    · exact suffix_word _ _
  | single => exact suffix_single _ _ _
  | double => exact suffix_double _ _
  | literal => exact suffix_literal _ _ _

theorem suffix_tag (p : Page) (tag : Option String) : p.text <:+ (p.tag tag).text := by
  cases tag with
  | none => exact List.suffix_refl _
  | some name =>
    simp only [Page.tag]
    split
    · exact suffix_word _ _
    · exact suffix_word _ _

end Page

theorem suffix_writeScalar (indent : Option Nat) (simpleKey : Bool) (tag : Option String)
    (v : Value) (p : Page) :
    p.text <:+ (writeValue.writeScalar indent simpleKey tag v p).text := by
  rw [writeValue.writeScalar]
  split
  · exact (Page.suffix_tag p tag).trans (Page.suffix_scalar _ _ _ _)
  · exact List.suffix_refl _

mutual

/-- **Writing a value adds to the page.** -/
theorem suffix_writeValue (indent : Option Nat) (underKey simpleKey : Bool) :
    ∀ (tag : Option String) (v : Value) (p : Page),
      p.text <:+ (writeValue indent underKey simpleKey tag v p).text
  | _, .tagged name v, p => by
    rw [writeValue]
    exact suffix_writeValue indent underKey simpleKey (some name) v p
  | tag, .sequence [], p => by
    rw [writeValue]
    exact (Page.suffix_tag p tag).trans (Page.suffix_word _ _)
  | tag, .sequence (v :: vs), p => by
    rw [writeValue]
    exact (Page.suffix_tag p tag).trans (suffix_writeItems _ (v :: vs) _)
  | tag, .mapping [], p => by
    rw [writeValue]
    exact (Page.suffix_tag p tag).trans (Page.suffix_word _ _)
  | tag, .mapping (e :: es), p => by
    rw [writeValue]
    exact (Page.suffix_tag p tag).trans (suffix_writeEntries _ (e :: es) _)
  | tag, .null, p => by rw [writeValue]; exact suffix_writeScalar _ _ _ _ _
  | tag, .bool b, p => by rw [writeValue]; exact suffix_writeScalar _ _ _ _ _
  | tag, .int n, p => by rw [writeValue]; exact suffix_writeScalar _ _ _ _ _
  | tag, .float x, p => by rw [writeValue]; exact suffix_writeScalar _ _ _ _ _
  | tag, .text s, p => by rw [writeValue]; exact suffix_writeScalar _ _ _ _ _

theorem suffix_writeItems (indent : Nat) :
    ∀ (vs : List Value) (p : Page), p.text <:+ (writeItems indent vs p).text
  | [], p => by simp only [writeItems, List.suffix_refl]
  | v :: vs, p => by
    rw [writeItems]
    exact (((Page.suffix_indentTo p indent).trans (Page.suffix_entry _ _)).trans
      (suffix_writeValue _ _ _ _ v _)).trans (suffix_writeItems indent vs _)

theorem suffix_writeEntries (indent : Nat) :
    ∀ (es : List (Value × Value)) (p : Page), p.text <:+ (writeEntries indent es p).text
  | [], p => by simp only [writeEntries, List.suffix_refl]
  | (k, v) :: es, p => by
    rw [writeEntries]
    split
    · exact ((((Page.suffix_indentTo p indent).trans (suffix_writeValue _ _ _ _ k _)).trans
        (Page.suffix_glue _ _)).trans (suffix_writeValue _ _ _ _ v _)).trans
        (suffix_writeEntries indent es _)
    · exact ((((((Page.suffix_indentTo p indent).trans (Page.suffix_entry _ _)).trans
        (suffix_writeValue _ _ _ _ k _)).trans (Page.suffix_indentTo _ _)).trans
        (Page.suffix_entry _ _)).trans (suffix_writeValue _ _ _ _ v _)).trans
        (suffix_writeEntries indent es _)

end

/-! ### Tags and mappings -/

theorem mem_tag (p : Page) (name : String) : '!' ∈ (p.tag (some name)).text := by
  simp only [Page.tag]
  split <;> simp [Page.word, Page.glue, Page.put]

/-- The mark of a tag stays. -/
theorem mem_writeValue_of_tag (indent : Option Nat) (underKey simpleKey : Bool) :
    ∀ (name : String) (v : Value) (p : Page),
      '!' ∈ (writeValue indent underKey simpleKey (some name) v p).text := by
  intro name v
  have hstays : ∀ (p q : Page), (p.tag (some name)).text <:+ q.text → '!' ∈ q.text :=
    fun p q h => h.subset (mem_tag p name)
  have hscalar : ∀ (v : Value) (style : ScalarStyle) (s : String) (p : Page),
      scalarForm? simpleKey v = some (style, s) →
        '!' ∈ (writeValue.writeScalar indent simpleKey (some name) v p).text := by
    intro v style s p h
    simp only [writeValue.writeScalar, h]
    exact hstays p _ (Page.suffix_scalar _ _ _ _)
  intro p
  cases v with
  | tagged inner v =>
    rw [writeValue]
    exact mem_writeValue_of_tag indent underKey simpleKey inner v p
  | sequence items =>
    cases items with
    | nil => rw [writeValue]; exact hstays p _ (Page.suffix_word _ _)
    | cons v vs => rw [writeValue]; exact hstays p _ (suffix_writeItems _ _ _)
  | mapping entries =>
    cases entries with
    | nil => rw [writeValue]; exact hstays p _ (Page.suffix_word _ _)
    | cons e es => rw [writeValue]; exact hstays p _ (suffix_writeEntries _ _ _)
  | null => rw [writeValue]; exact hscalar _ _ _ p rfl
  | bool b => rw [writeValue]; exact hscalar _ _ _ p rfl
  | int n => rw [writeValue]; exact hscalar _ _ _ p rfl
  | float x => rw [writeValue]; exact hscalar _ _ _ p rfl
  | text s => rw [writeValue]; exact hscalar _ _ _ p rfl

/-- The colon behind a key stays. -/
theorem mem_writeEntries (indent : Nat) (e : Value × Value) (es : List (Value × Value))
    (p : Page) : ':' ∈ (writeEntries indent (e :: es) p).text := by
  obtain ⟨k, v⟩ := e
  rw [writeEntries]
  have hstays : ∀ q : Page, ':' ∈ q.text →
      ':' ∈ (writeEntries indent es (writeValue (some indent) true false none v q)).text :=
    fun q hq => (suffix_writeEntries indent es _).subset
      ((suffix_writeValue _ _ _ _ v _).subset hq)
  refine hstays _ ?_
  split
  · simp [Page.glue, Page.put]
  · simp [Page.entry, Page.put]

/-! ### Sequences -/

/-- Something was written, and a blank first. -/
def Page.Parted (p q : Page) : Prop :=
  ∃ c, Text.isBlank c = true ∧ (c :: p.text) <:+ q.text

namespace Page

theorem Parted.trans {p q r : Page} (h : Parted p q) (hr : q.text <:+ r.text) : Parted p r := by
  obtain ⟨c, hc, hsuffix⟩ := h
  exact ⟨c, hc, hsuffix.trans hr⟩

theorem parted_word {p : Page} (h : p.spaced = false) (l : List Char) : Parted p (p.word l) := by
  refine ⟨' ', rfl, List.IsSuffix.trans ?_ (suffix_glue p.space l)⟩
  simp [space, h, put]

theorem parted_indentTo {p : Page} (h : p.spaced = false) (indent : Nat) :
    Parted p (p.indentTo indent) := by
  unfold indentTo
  split
  · exact ⟨'\n', rfl, suffix_put (p.endLine '\n') _⟩
  · next hline =>
    -- the end stands on the line and before the indentation, since it is not spaced
    simp only [h, Bool.or_eq_true, decide_eq_true_eq, not_or, Bool.not_false, Bool.and_true,
      beq_iff_eq] at hline
    obtain ⟨n, hn⟩ : ∃ n, indent - p.column = n + 1 := ⟨indent - p.column - 1, by omega⟩
    refine ⟨' ', rfl, ?_⟩
    simp only [put, hn, List.reverse_replicate]
    rw [List.replicate_succ', List.append_assoc]
    exact List.suffix_append _ _

theorem parted_scalar {p : Page} (h : p.spaced = false) (indent : Nat) {style : ScalarStyle}
    {s : String} (hs : style = .plain → s.isEmpty = false) :
    Parted p (p.scalar indent style s) := by
  cases style with
  | plain =>
    rw [scalar, if_neg (by simp [hs rfl])]
    exact parted_word h _
  | single =>
    refine (parted_word h ['\'']).trans ?_
    rw [scalar, single]
    refine List.IsSuffix.trans ?_ (suffix_glue _ _)
    split
    · exact (suffix_lines _ _ _ _ _).trans (suffix_indentTo _ _)
    · exact suffix_lines _ _ _ _ _
  | double => exact (parted_word h ['"']).trans ((suffix_put _ _).trans (suffix_glue _ _))
  | literal =>
    refine (parted_word h ('|' :: blockHints s.toList)).trans ?_
    rw [scalar, literal]
    refine List.IsSuffix.trans ?_ (suffix_lines _ _ _ _ _)
    exact suffix_endLine _ _

theorem parted_tag {p : Page} (h : p.spaced = false) (name : String) :
    Parted p (p.tag (some name)) := by
  simp only [Page.tag]
  split
  · exact parted_word h _
  · exact parted_word h _

end Page

/-- Only a text that reads back as a text is written plain, and the empty one does not. -/
theorem ScalarStyle.choose_empty (simpleKey : Bool) : ScalarStyle.choose "" simpleKey ≠ .plain := by
  cases simpleKey <;> decide

theorem isEmpty_eq_false_of_scalarForm? {simpleKey : Bool} {v : Value} {style : ScalarStyle}
    {s : String} (h : scalarForm? simpleKey v = some (style, s)) (hplain : style = .plain) :
    s.isEmpty = false := by
  rw [String.isEmpty_eq_false_iff]
  subst hplain
  cases v with
  | null => cases h; decide
  | bool b => cases h; cases b <;> decide
  | int n => cases h; exact intText_ne_empty n
  | float x => cases h; exact FloatText.write_ne_empty (by decide) (by decide) x
  | text s' =>
    simp only [scalarForm?, Option.some.injEq, Prod.mk.injEq] at h
    obtain ⟨hstyle, rfl⟩ := h
    rintro rfl
    exact ScalarStyle.choose_empty simpleKey hstyle
  | sequence items => cases h
  | mapping entries => cases h
  | tagged tag v => cases h

theorem parted_writeScalar {p : Page} (h : p.spaced = false) (indent : Option Nat)
    (simpleKey : Bool) (tag : Option String) {v : Value} {style : ScalarStyle} {s : String}
    (hv : scalarForm? simpleKey v = some (style, s)) :
    Page.Parted p (writeValue.writeScalar indent simpleKey tag v p) := by
  simp only [writeValue.writeScalar, hv]
  cases tag with
  | none => exact Page.parted_scalar h _ (isEmpty_eq_false_of_scalarForm? hv)
  | some name => exact (Page.parted_tag h name).trans (Page.suffix_scalar _ _ _ _)

theorem parted_writeItems {p : Page} (h : p.spaced = false) (indent : Nat) (v : Value)
    (vs : List Value) : Page.Parted p (writeItems indent (v :: vs) p) := by
  rw [writeItems]
  refine (Page.parted_indentTo h indent).trans ?_
  exact ((Page.suffix_entry _ _).trans (suffix_writeValue _ _ _ _ v _)).trans
    (suffix_writeItems indent vs _)

theorem parted_writeEntries {p : Page} (h : p.spaced = false) (indent : Nat) (e : Value × Value)
    (es : List (Value × Value)) : Page.Parted p (writeEntries indent (e :: es) p) := by
  obtain ⟨k, v⟩ := e
  rw [writeEntries]
  refine (Page.parted_indentTo h indent).trans ?_
  have hvalue : ∀ q : Page, (p.indentTo indent).text <:+ q.text → (p.indentTo indent).text <:+
      (writeEntries indent es (writeValue (some indent) true false none v q)).text :=
    fun q hq => (hq.trans (suffix_writeValue _ _ _ _ v _)).trans (suffix_writeEntries indent es _)
  refine hvalue _ ?_
  split
  · exact (suffix_writeValue _ _ _ _ k _).trans (Page.suffix_glue _ _)
  · exact (((Page.suffix_entry _ _).trans (suffix_writeValue _ _ _ _ k _)).trans
      (Page.suffix_indentTo _ _)).trans (Page.suffix_entry _ _)

/-- **Behind a mark, a value is written behind a blank.** -/
theorem parted_writeValue (indent : Option Nat) (underKey simpleKey : Bool) :
    ∀ (tag : Option String) (v : Value) {p : Page}, p.spaced = false →
      Page.Parted p (writeValue indent underKey simpleKey tag v p) := by
  intro tag v p h
  -- a collection follows its tag, if it has one, or parts from the mark by itself
  have htag : ∀ q : Page, (p.tag tag).text <:+ q.text →
      (tag = none → Page.Parted p q) → Page.Parted p q := by
    intro q hq hnone
    cases tag with
    | none => exact hnone rfl
    | some name => exact (Page.parted_tag h name).trans hq
  cases v with
  | tagged name v =>
    rw [writeValue]
    exact parted_writeValue indent underKey simpleKey (some name) v h
  | sequence items =>
    cases items with
    | nil =>
      rw [writeValue]
      refine htag _ (Page.suffix_word _ _) ?_
      rintro rfl
      exact Page.parted_word h _
    | cons v vs =>
      rw [writeValue]
      refine htag _ (suffix_writeItems _ _ _) ?_
      rintro rfl
      exact parted_writeItems h _ v vs
  | mapping entries =>
    cases entries with
    | nil =>
      rw [writeValue]
      refine htag _ (Page.suffix_word _ _) ?_
      rintro rfl
      exact Page.parted_word h _
    | cons e es =>
      rw [writeValue]
      refine htag _ (suffix_writeEntries _ _ _) ?_
      rintro rfl
      exact parted_writeEntries h _ e es
  | null => rw [writeValue]; exact parted_writeScalar h _ _ _ rfl
  | bool b => rw [writeValue]; exact parted_writeScalar h _ _ _ rfl
  | int n => rw [writeValue]; exact parted_writeScalar h _ _ _ rfl
  | float x => rw [writeValue]; exact parted_writeScalar h _ _ _ rfl
  | text s => rw [writeValue]; exact parted_writeScalar h _ _ _ rfl

/-! ### Written values -/

/-- The text of a value, last character first. -/
theorem write?_eq_some {v : Value} {s : String} (h : write? v = some s) :
    s.toList = Text.trim (writeValue none false false none v {}).text.reverse := by
  unfold write? at h
  split at h
  · cases h
    rw [String.toList_ofList]
  · cases h

/-- **A written mapping holds a colon, or a brace if it is empty.** -/
theorem mem_writeValue_mapping (entries : List (Value × Value)) :
    ∃ c ∈ [':', '\x7b'], c ∈ (writeValue none false false none (.mapping entries) {}).text := by
  cases entries with
  | nil => exact ⟨'\x7b', by simp, by decide⟩
  | cons e es =>
    rw [writeValue]
    exact ⟨':', by simp, mem_writeEntries _ e es _⟩

/-- **A written sequence with items begins with a dash and a blank.** -/
theorem reverse_writeValue_sequence (v : Value) (vs : List Value) :
    ∃ c l, Text.isBlank c = true ∧
      (writeValue none false false none (.sequence (v :: vs)) {}).text.reverse = '-' :: c :: l := by
  have hdash : (Page.entry (Page.indentTo {} 0) '-').text = ['-'] := by decide
  have hparted := (parted_writeValue (some 0) false false none v
    (p := Page.entry (Page.indentTo {} 0) '-') rfl).trans (suffix_writeItems 0 vs _)
  obtain ⟨c, hc, l, hl⟩ := hparted
  refine ⟨c, l.reverse, hc, ?_⟩
  have hitems : writeValue none false false none (.sequence (v :: vs)) {}
      = writeItems 0 (v :: vs) {} := by
    rw [writeValue]
    rfl
  rw [hitems, writeItems, ← hl, hdash]
  simp

end PlaybookPolicy.Yaml
