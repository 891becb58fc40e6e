import Mathlib.Data.List.Nodup
import PlaybookPolicy.Proofs.MapEntries
import PlaybookPolicy.Toml.Reader

/-!
# The tables of a TOML text

A TOML text fills its tables piece by piece, through headers, dotted keys and braces.  Whichever way
an entry comes into a table, its key is looked up there first, and a key that is taken is either
refused or leads into the table or the sequence of tables that it has.  So in all tables that a text
writes, however deep they are, every key stands once.  There is also no value that stands for
nothing.

## Main definitions

* `Datum.Regular` — no key stands twice in a table of the datum, and nothing in it is null.
* `Toml.Item.Regular`, `Toml.Entries.Regular` — the same of tables under construction.

## Main results

* `Toml.Entries.Regular.descend` — a change at the end of a path keeps tables regular if it keeps
  the last one regular.
* `Toml.regular_of_scanValue` — values are regular.
* `Toml.regular_of_read?` — **what a TOML text writes is regular.**
-/

namespace PlaybookPolicy

/-- No key stands twice in a table of the datum, and nothing in it is null. -/
inductive Datum.Regular : Datum → Prop
  /-- A truth value. -/
  | bool (b : Bool) : Regular (.bool b)
  /-- An integer. -/
  | int (n : Int) : Regular (.int n)
  /-- A double. -/
  | float (x : Float) : Regular (.float x)
  /-- A text. -/
  | text (s : String) : Regular (.text s)
  /-- A list of regular data. -/
  | list {items : List Datum} (h : ∀ d ∈ items, Regular d) : Regular (.list items)
  /-- A table with distinct keys. -/
  | table {entries : List (String × Datum)} (hkeys : (entries.map Prod.fst).Nodup)
      (h : ∀ e ∈ entries, Regular e.2) : Regular (.table entries)
  /-- A scattered table with distinct keys. -/
  | scattered {entries : List (String × Datum)} (hkeys : (entries.map Prod.fst).Nodup)
      (h : ∀ e ∈ entries, Regular e.2) : Regular (.scattered entries)

namespace Datum.Regular

variable {d : Datum} {entries : List (String × Datum)}

theorem of_entries? (h : d.Regular) (hd : d.entries? = some entries) :
    (entries.map Prod.fst).Nodup ∧ ∀ e ∈ entries, e.2.Regular := by
  cases h with
  | table hkeys h => cases hd; exact ⟨hkeys, h⟩
  | scattered hkeys h => cases hd; exact ⟨hkeys, h⟩
  | _ => cases hd

theorem of_get? {key : String} {v : Datum} (h : d.Regular) (hv : d.get? key = some v) :
    v.Regular := by
  obtain ⟨entries, hentries, hlookup⟩ := Option.bind_eq_some_iff.mp hv
  exact (h.of_entries? hentries).2 (key, v) (mem_of_lookup hlookup)

end Datum.Regular

namespace Toml

/-! ### Tables under construction -/

/-- No key stands twice in a table of the item, and nothing in it is null. -/
inductive Item.Regular : Item → Prop
  /-- A value. -/
  | value {d : Datum} (h : d.Regular) : Regular (.value d)
  /-- A table with distinct keys. -/
  | table {origin : Origin} {es : List (String × Item)} (hkeys : (es.map Prod.fst).Nodup)
      (h : ∀ e ∈ es, Regular e.2) : Regular (.table origin es)
  /-- Tables with distinct keys each. -/
  | tables {l : List (List (String × Item))} (hkeys : ∀ es ∈ l, (es.map Prod.fst).Nodup)
      (h : ∀ es ∈ l, ∀ e ∈ es, Regular e.2) : Regular (.tables l)

/-- The entries of a table have distinct keys, and so have those of all tables in it. -/
structure Entries.Regular (es : Entries) : Prop where
  /-- The keys are distinct. -/
  nodup : (es.map Prod.fst).Nodup
  /-- The items are regular. -/
  items : ∀ e ∈ es, e.2.Regular

namespace Entries

variable {es es' : Entries} {key : String} {item : Item} {path : List String}

theorem regular_nil : Regular [] :=
  ⟨List.nodup_nil, by simp⟩

theorem regular_iff_table {origin : Origin} : (Item.table origin es).Regular ↔ Regular es := by
  constructor
  · intro h
    cases h with
    | table hkeys h => exact ⟨hkeys, h⟩
  · rintro ⟨hkeys, h⟩
    exact .table hkeys h

theorem regular_iff_tables {l : List Entries} :
    (Item.tables l).Regular ↔ ∀ es ∈ l, Regular es := by
  constructor
  · intro h es hes
    cases h with
    | tables hkeys h => exact ⟨hkeys es hes, h es hes⟩
  · intro h
    exact .tables (fun es hes => (h es hes).nodup) fun es hes => (h es hes).items

namespace Regular

theorem of_lookup (h : Regular es) (hitem : es.lookup key = some item) : item.Regular :=
  h.items (key, item) (mem_of_lookup hitem)

/-- A new key may be added. -/
theorem append (h : Regular es) (hkey : es.lookup key = none) (hitem : item.Regular) :
    Regular (es ++ [(key, item)]) where
  nodup := by
    rw [List.map_append, List.map_singleton, List.nodup_append]
    refine ⟨h.nodup, List.nodup_singleton key, ?_⟩
    intro k hk k' hk' heq
    obtain ⟨e, he, rfl⟩ := List.mem_map.mp hk
    have hne := List.lookup_eq_none_iff.mp hkey e he
    rw [heq, List.mem_singleton.mp hk', bne_self_eq_false] at hne
    cases hne
  items := by
    intro e he
    rcases List.mem_append.mp he with he | he
    · exact h.items e he
    · rw [List.mem_singleton.mp he]
      exact hitem

end Regular

theorem map_fst_replaceKey (key : String) (item : Item) (es : Entries) :
    (replaceKey key item es).map Prod.fst = es.map Prod.fst := by
  induction es with
  | nil => rfl
  | cons e es ih =>
    rw [replaceKey]
    split
    · rfl
    · rw [List.map_cons, ih, List.map_cons]

theorem mem_replaceKey {e : String × Item} (h : e ∈ replaceKey key item es) :
    e.2 = item ∨ e ∈ es := by
  induction es with
  | nil => cases h
  | cons a es ih =>
    rw [replaceKey] at h
    split at h
    · rcases List.mem_cons.mp h with rfl | h
      · exact .inl rfl
      · exact .inr (List.mem_cons_of_mem a h)
    · rcases List.mem_cons.mp h with rfl | h
      · exact .inr List.mem_cons_self
      · exact (ih h).imp_right (List.mem_cons_of_mem a)

namespace Regular

/-- The item under a key may be replaced. -/
theorem replaceKey (h : Regular es) (hitem : item.Regular) :
    Regular (replaceKey key item es) where
  nodup := by
    rw [map_fst_replaceKey]
    exact h.nodup
  items := by
    intro e he
    rcases mem_replaceKey he with heq | he
    · rw [heq]
      exact hitem
    · exact h.items e he

/-- **A change at the end of a path keeps tables regular** if it keeps the last one regular. -/
theorem descend {dotted : Bool} {change : Origin → Entries → Option Entries}
    (hchange : ∀ {origin es es'}, Regular es → change origin es = some es' → Regular es') :
    ∀ {path : List String} {origin : Origin} {es es' : Entries}, Regular es →
      descend dotted change path origin es = some es' → Regular es' := by
  intro path
  induction path with
  | nil =>
    intro origin es es' h hes'
    exact hchange h hes'
  | cons key path ih =>
    intro origin es es' h hes'
    rw [Toml.descend] at hes'
    split at hes'
    -- the key is new: a table is made for it
    · next hnone =>
      obtain ⟨sub, hsub, rfl⟩ := Option.map_eq_some_iff.mp hes'
      exact h.append hnone (regular_iff_table.mpr (ih regular_nil hsub))
    · cases hes'
    -- of a sequence of tables the last one is entered
    · next l hl =>
      have htables := regular_iff_tables.mp (h.of_lookup hl)
      split at hes'
      · cases hes'
      · next last hlast =>
        obtain ⟨sub, hsub, rfl⟩ := Option.map_eq_some_iff.mp hes'
        refine h.replaceKey (regular_iff_tables.mpr ?_)
        intro es hes
        rcases List.mem_append.mp hes with hes | hes
        · exact htables es (List.dropLast_subset l hes)
        · rw [List.mem_singleton.mp hes]
          exact ih (htables last (List.mem_of_getLast? hlast)) hsub
    · next origin' sub hl =>
      split at hes'
      · cases hes'
      · obtain ⟨sub', hsub', rfl⟩ := Option.map_eq_some_iff.mp hes'
        exact h.replaceKey (regular_iff_table.mpr
          (ih (regular_iff_table.mp (h.of_lookup hl)) hsub'))

theorem insertKey {d : Datum} (h : Regular es) (hd : d.Regular)
    (hes' : insertKey path key d es = some es') : Regular es' := by
  refine h.descend ?_ hes'
  intro origin sub sub' hsub hsub'
  split at hsub'
  · cases hsub'
  · next hfree =>
    cases hsub'
    rw [Bool.or_eq_true, not_or, Option.not_isSome_iff_eq_none] at hfree
    exact hsub.append hfree.1 (.value hd)

theorem openTable (h : Regular es) (hes' : openTable path key es = some es') : Regular es' := by
  refine h.descend ?_ hes'
  intro origin sub sub' hsub hsub'
  split at hsub'
  · next hnone =>
    cases hsub'
    exact hsub.append hnone (regular_iff_table.mpr regular_nil)
  · next inner hl =>
    cases hsub'
    exact hsub.replaceKey (regular_iff_table.mpr (regular_iff_table.mp (hsub.of_lookup hl)))
  · cases hsub'

theorem appendTable (h : Regular es) (hes' : appendTable path key es = some es') :
    Regular es' := by
  refine h.descend ?_ hes'
  intro origin sub sub' hsub hsub'
  split at hsub'
  · next hnone =>
    cases hsub'
    refine hsub.append hnone (regular_iff_tables.mpr ?_)
    simp [regular_nil]
  · next l hl =>
    cases hsub'
    have htables := regular_iff_tables.mp (hsub.of_lookup hl)
    refine hsub.replaceKey (regular_iff_tables.mpr ?_)
    rw [List.forall_mem_append, List.forall_mem_singleton]
    exact ⟨htables, regular_nil⟩
  · cases hsub'

end Regular

end Entries

/-! ### Tables that are read -/

theorem entryData_eq_map (inBraces : Bool) (es : Entries) :
    entryData inBraces es = es.map fun e => (e.1, e.2.datum inBraces) := by
  induction es with
  | nil => rfl
  | cons e es ih => rw [entryData, ih, List.map_cons]

theorem tableData_eq_map (inBraces : Bool) (l : List Entries) :
    tableData inBraces l = l.map fun es => .scattered (entryData inBraces es) := by
  induction l with
  | nil => rfl
  | cons es l ih => rw [tableData, ih, List.map_cons]

theorem map_fst_entryData (inBraces : Bool) (es : Entries) :
    (entryData inBraces es).map Prod.fst = es.map Prod.fst := by
  rw [entryData_eq_map, List.map_map]
  rfl

/-- Regular tables are read as regular data. -/
theorem Item.Regular.datum {item : Item} (h : item.Regular) (inBraces : Bool) :
    (item.datum inBraces).Regular := by
  have hentries : ∀ {es : Entries}, (∀ e ∈ es, (e.2.datum inBraces).Regular) →
      ∀ e ∈ entryData inBraces es, e.2.Regular := by
    intro es hes
    rw [entryData_eq_map, List.forall_mem_map]
    exact hes
  induction h with
  | value h => exact h
  | @table origin es hkeys _ ih =>
    rw [← map_fst_entryData inBraces] at hkeys
    rw [Item.datum]
    split
    · exact .table hkeys (hentries ih)
    · exact .scattered hkeys (hentries ih)
  | tables hkeys _ ih =>
    rw [Item.datum, tableData_eq_map]
    refine .list ?_
    rw [List.forall_mem_map]
    intro es hes
    refine .scattered ?_ (hentries (ih es hes))
    rw [map_fst_entryData]
    exact hkeys es hes

theorem Entries.Regular.entryData {es : Entries} (h : es.Regular) (inBraces : Bool) :
    ((entryData inBraces es).map Prod.fst).Nodup ∧ ∀ e ∈ entryData inBraces es, e.2.Regular := by
  rw [map_fst_entryData, entryData_eq_map, List.forall_mem_map]
  exact ⟨h.nodup, fun e he => (h.items e he).datum inBraces⟩

/-! ### Values -/

theorem regular_of_wordValue? {l : List Char} {d : Datum} (h : wordValue? l = some d) :
    d.Regular := by
  rw [wordValue?] at h
  split at h
  · cases h; exact .bool _
  · cases h; exact .int _
  · cases h; exact .float _
  · split at h
    · cases h
      refine .table (List.nodup_singleton _) ?_
      rw [List.forall_mem_singleton]
      exact .text _
    · cases h

mutual

/-- **Values are regular.** -/
theorem regular_of_scanValue {depth fuel : Nat} {l r : List Char} {d : Datum}
    (h : scanValue depth fuel l = some (d, r)) : d.Regular := by
  cases fuel with
  | zero => rw [scanValue] at h; cases h
  | succ fuel =>
    rw [scanValue.eq_def] at h
    dsimp only at h
    split at h
    · split at h
      · cases h
      · obtain ⟨⟨items, r'⟩, hitems, heq⟩ := Option.map_eq_some_iff.mp h
        cases heq
        exact .list (regular_of_scanItems hitems)
    · split at h
      · cases h
      · split at h
        · cases h
          exact .table List.nodup_nil (by simp)
        · obtain ⟨⟨es, r'⟩, hes, heq⟩ := Option.map_eq_some_iff.mp h
          cases heq
          have hentries :=
            (regular_of_scanEntries Entries.regular_nil hes).entryData true
          exact .table hentries.1 hentries.2
    · obtain ⟨⟨s, r'⟩, -, heq⟩ := Option.map_eq_some_iff.mp h
      cases heq
      exact .text _
    · obtain ⟨⟨s, r'⟩, -, heq⟩ := Option.map_eq_some_iff.mp h
      cases heq
      exact .text _
    · obtain ⟨d', hd, heq⟩ := Option.map_eq_some_iff.mp h
      cases heq
      exact regular_of_wordValue? hd
termination_by fuel

theorem regular_of_scanItems {depth fuel : Nat} {l r : List Char} {items : List Datum}
    (h : scanItems depth fuel l = some (items, r)) : ∀ d ∈ items, d.Regular := by
  cases fuel with
  | zero => rw [scanItems] at h; cases h
  | succ fuel =>
    rw [scanItems] at h
    split at h
    · cases h
      simp
    · split at h
      · cases h
      · next d r' hd =>
        have hfirst := regular_of_scanValue hd
        split at h
        · obtain ⟨⟨more, r''⟩, hmore, heq⟩ := Option.map_eq_some_iff.mp h
          cases heq
          rw [List.forall_mem_cons]
          exact ⟨hfirst, regular_of_scanItems hmore⟩
        · cases h
          rw [List.forall_mem_singleton]
          exact hfirst
        · cases h
termination_by fuel

theorem regular_of_scanEntries {depth fuel : Nat} {es es' : Entries} {l r : List Char}
    (hes : es.Regular) (h : scanEntries depth fuel es l = some (es', r)) : es'.Regular := by
  cases fuel with
  | zero => rw [scanEntries] at h; cases h
  | succ fuel =>
    rw [scanEntries] at h
    split at h
    · split at h
      · cases h
      · next d r' hd =>
        split at h
        · cases h
        · next es'' hinsert =>
          have hmore := hes.insertKey (regular_of_scanValue hd) hinsert
          split at h
          · exact regular_of_scanEntries hmore h
          · cases h
            exact hmore
          · cases h
    · cases h
termination_by fuel

end

/-! ### Lines -/

namespace Document

variable {doc doc' : Document} {l r : List Char}

theorem regular_of_insert {path : List String} {key : String} {d : Datum}
    (hdoc : doc.entries.Regular) (hd : d.Regular) (h : doc.insert path key d = some doc') :
    doc'.entries.Regular := by
  obtain ⟨entries, hentries, rfl⟩ := Option.map_eq_some_iff.mp h
  exact hdoc.descend (fun hes => hes.insertKey hd) hentries

theorem regular_of_scanLine (hdoc : doc.entries.Regular) (h : doc.scanLine l = some (doc', r)) :
    doc'.entries.Regular := by
  rw [scanLine] at h
  split at h
  · split at h
    · split at h
      · next happend _ =>
        cases h
        exact hdoc.appendTable happend
      · cases h
    · cases h
  · split at h
    · split at h
      · next hopen _ =>
        cases h
        exact hdoc.openTable hopen
      · cases h
    · cases h
  · split at h
    · cases h
      exact hdoc
    · split at h
      · split at h
        · cases h
        · next hd =>
          split at h
          · next hinsert _ =>
            cases h
            exact regular_of_insert hdoc (regular_of_scanValue hd) hinsert
          · cases h
      · cases h

theorem regular_of_scanLines :
    ∀ {fuel : Nat} {doc doc' : Document} {l : List Char}, doc.entries.Regular →
      scanLines fuel doc l = some doc' → doc'.entries.Regular := by
  intro fuel
  induction fuel with
  | zero =>
    intro doc doc' l hdoc h
    cases l with
    | nil => cases h; exact hdoc
    | cons c l => cases h
  | succ fuel ih =>
    intro doc doc' l hdoc h
    cases l with
    | nil => cases h; exact hdoc
    | cons c l =>
      rw [scanLines] at h
      · split at h
        · next hline => exact ih (regular_of_scanLine hdoc hline) h
        · cases h
      · simp

end Document

/-- **What a TOML text writes is regular**: every key stands once in its table, and nothing is
null. -/
theorem regular_of_read? {s : String} {d : Datum} (h : read? s = some d) : d.Regular := by
  obtain ⟨doc, hdoc, rfl⟩ := Option.map_eq_some_iff.mp h
  have hentries := (Document.regular_of_scanLines Entries.regular_nil hdoc).entryData false
  exact .scattered hentries.1 hentries.2

end Toml

end PlaybookPolicy
