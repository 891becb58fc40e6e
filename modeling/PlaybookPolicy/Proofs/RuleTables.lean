import PlaybookPolicy.Proofs.ExitCode
import PlaybookPolicy.Proofs.OptionTables

/-!
# The section on rules

The section on rules is a table.  Each of its keys must be the id of a rule, and beside it stands a
truth value or a table of options.  One broken entry is enough to refuse the whole text.  Without a
broken entry, the configuration says of each rule what stands beside its id, and of no other rule
anything; the other sections have no part in that.  How options are spelled and in which order they
stand does not matter, nor does the order of the rules.

## Main definitions

* `Datum.rulesTable` — the entries of the section.
* `BrokenEntry` — the faults of an entry.
* `RuleEntry.ReadFrom` — the configuration says of a rule what stands beside its id.
* `SameDocument` — documents that differ in the spelling of options, and in the order of options and
  rules.
* `Config.RestDecodes` — all but the truth values and tables of the section can be read.
* `Datum.same` — a comparison of data that can be evaluated.

## Main results

* `ruleEntry?_of_broken`, `exists_ruleEntry?` — the entries that can be read.
* `Config.ofDatum?_of_broken` — one broken entry is enough.
* `Config.exists_rules` — **what a configuration says of rules.**
* `Config.ofDatum?_of_sameDocument` — **neither spelling nor order matters.**
* `Config.parse_ruleTables` — the three together, for a text.
-/

namespace PlaybookPolicy

/-! ### Entries -/

/-- The datum is a truth value or a table. -/
def Datum.IsSwitchOrTable (d : Datum) : Prop :=
  (∃ on, d = .bool on) ∨ ∃ es, d.entries? = some es

/-- The faults of an entry of the section on rules. -/
inductive BrokenEntry : String × Datum → Prop
  /-- An empty key. -/
  | emptyKey (d : Datum) : BrokenEntry ("", d)
  /-- A character that has no place in a rule id. -/
  | badCharacter {key : String} {d : Datum} {c : Char} (hc : c ∈ key.toList)
      (halphanumeric : Text.isAlphanumeric c = false) (hhyphen : c ≠ '-')
      (hunderscore : c ≠ '_') : BrokenEntry (key, d)
  /-- A broken table of options. -/
  | badTable {key : String} {d : Datum} {es : List (String × Datum)} (hes : d.entries? = some es)
      (h : BrokenTable es) : BrokenEntry (key, d)

/-- What is said about the rule is what the datum writes. -/
inductive RuleEntry.ReadFrom : RuleEntry → Datum → Prop
  /-- A truth value turns the rule on or off. -/
  | enabled (on : Bool) : ReadFrom (.enabled on) (.bool on)
  /-- A table gives the options of the rule. -/
  | settings {s : RuleSettings} {d : Datum} {es : List (String × Datum)}
      (hes : d.entries? = some es) (h : s.ReadFrom es) : ReadFrom (.settings s) d

/-- The entries have the same key, and beside it the same datum or the same table but for spelling
and order. -/
def SameEntry (e e' : String × Datum) : Prop :=
  e'.1 = e.1 ∧ (e'.2 = e.2 ∨
    ∃ es es', e.2.entries? = some es ∧ e'.2.entries? = some es' ∧ SameTable es es')

/-- Entries may be written in another way, and they may stand in another order. -/
def SameRules (es es' : List (String × Datum)) : Prop :=
  ∃ rewritten, List.Forall₂ SameEntry es rewritten ∧ rewritten.Perm es'

variable {e e' : String × Datum} {es es' : List (String × Datum)} {d d' : Datum}

theorem isRuleIdText_of_not_broken (h : ¬BrokenEntry e) : IsRuleIdText e.1 := by
  obtain ⟨key, d⟩ := e
  constructor
  · rintro rfl
    exact h (.emptyKey d)
  · intro c hc
    by_contra hbad
    simp only [isRuleIdChar, Bool.or_eq_true, beq_iff_eq, not_or, Bool.not_eq_true] at hbad
    exact h (.badCharacter hc hbad.1.1 hbad.1.2 hbad.2)

theorem RuleEntry.ofDatum?_of_entries? (hes : d.entries? = some es) :
    ofDatum? d = (RuleSettings.ofDatum? d).map .settings := by
  cases d with
  | table _ | scattered _ => rfl
  | _ => cases hes

theorem RuleId.ofText?_eq_some_iff {s : String} {id : RuleId} :
    ofText? s = some id ↔ id.text = s := by
  constructor
  · intro h
    rw [ofText?] at h
    split at h
    · cases h
      rfl
    · cases h
  · rintro rfl
    exact ofText?_text id

/-- An entry is read with the key that it has. -/
theorem ruleEntry?_eq_some_iff {key : String} {entry : RuleEntry} :
    ruleEntry? e = some (key, entry) ↔
      key = e.1 ∧ IsRuleIdText e.1 ∧ RuleEntry.ofDatum? e.2 = some entry := by
  unfold ruleEntry?
  simp only [Option.bind_eq_some_iff, Option.map_eq_some_iff, RuleId.ofText?_eq_some_iff,
    Prod.mk.injEq]
  constructor
  · rintro ⟨id, hid, entry', hentry, rfl, rfl⟩
    exact ⟨hid, hid ▸ id.valid, hentry⟩
  · rintro ⟨rfl, hid, hentry⟩
    exact ⟨⟨e.1, hid⟩, rfl, entry, hentry, rfl, rfl⟩

/-- A broken entry is refused. -/
theorem ruleEntry?_of_broken (hd : e.2.Regular) (h : BrokenEntry e) : ruleEntry? e = none := by
  rw [Option.eq_none_iff_forall_not_mem]
  rintro ⟨key, entry⟩ hentry
  obtain ⟨-, ⟨hne, hchars⟩, hdatum⟩ := ruleEntry?_eq_some_iff.mp hentry
  cases h with
  | emptyKey => exact hne rfl
  | @badCharacter key d c hc halphanumeric hhyphen hunderscore =>
    have hvalid := hchars c hc
    simp [isRuleIdChar, halphanumeric, hhyphen, hunderscore] at hvalid
  | badTable hes h =>
    rw [RuleEntry.ofDatum?_of_entries? hes, RuleSettings.ofDatum?_of_broken hd hes h] at hdatum
    cases hdatum

/-- Every other truth value and every other table is read. -/
theorem exists_ruleEntry? (hd : e.2.Regular) (hkind : e.2.IsSwitchOrTable) (h : ¬BrokenEntry e) :
    ∃ entry, ruleEntry? e = some (e.1, entry) ∧ entry.ReadFrom e.2 := by
  obtain ⟨key, d⟩ := e
  have hid := isRuleIdText_of_not_broken h
  rcases hkind with ⟨on, rfl⟩ | ⟨es, hes⟩
  · exact ⟨.enabled on, ruleEntry?_eq_some_iff.mpr ⟨rfl, hid, rfl⟩, .enabled on⟩
  · obtain ⟨s, hs, hread⟩ := RuleSettings.exists_readFrom hd hes fun hbad => h (.badTable hes hbad)
    refine ⟨.settings s, ruleEntry?_eq_some_iff.mpr ⟨rfl, hid, ?_⟩, .settings hes hread⟩
    rw [RuleEntry.ofDatum?_of_entries? hes, hs]
    rfl

theorem ruleEntry?_of_sameEntry (h : SameEntry e e') : ruleEntry? e' = ruleEntry? e := by
  unfold ruleEntry?
  obtain ⟨hkey, hdatum | ⟨es, es', hes, hes', hsame⟩⟩ := h
  · rw [hkey, hdatum]
  · rw [hkey, RuleEntry.ofDatum?_of_entries? hes, RuleEntry.ofDatum?_of_entries? hes',
      RuleSettings.ofDatum?_of_sameTable hes hes' hsame]

/-! ### The section -/

/-- Entries that are read keep their keys. -/
theorem keys_of_mapM_ruleEntry {l : List (String × RuleEntry)}
    (h : es.mapM ruleEntry? = some l) : l.map Prod.fst = es.map Prod.fst := by
  have hread := mapM_eq_some_iff.mp h
  rw [← List.forall₂_eq_eq_eq, List.forall₂_map_left_iff, List.forall₂_map_right_iff] at hread ⊢
  exact hread.flip.imp fun _ _ hentry => (ruleEntry?_eq_some_iff.mp hentry).1

theorem ruleEntries?_of_entries? (hes : d.entries? = some es) :
    ruleEntries? d = (es.mapM ruleEntry?).map TextMap.ofList := by
  rw [ruleEntries?, hes, Option.bind_some]

/-- What is read holds what the entries say. -/
theorem get?_of_ruleEntries? {rules : TextMap RuleEntry} (hd : d.Regular)
    (hes : d.entries? = some es) (h : ruleEntries? d = some rules) (key : String)
    (entry : RuleEntry) :
    rules.get? key = some entry ↔ ∃ e ∈ es, ruleEntry? e = some (key, entry) := by
  rw [ruleEntries?_of_entries? hes] at h
  obtain ⟨l, hl, rfl⟩ := Option.map_eq_some_iff.mp h
  have hkeys : (l.map Prod.fst).Nodup := by
    rw [keys_of_mapM_ruleEntry hl]
    exact (hd.of_entries? hes).1
  rw [TextMap.get?_ofList_eq_some_iff hkeys]
  calc (key, entry) ∈ l ↔ some (key, entry) ∈ l.map some := by simp
    _ ↔ ∃ e ∈ es, ruleEntry? e = some (key, entry) := by
      rw [← mapM_eq_some_iff.mp hl, List.mem_map]

/-- **Neither spelling nor order matters** for the section. -/
theorem ruleEntries?_of_sameRules (hd : d.Regular) (hes : d.entries? = some es)
    (hes' : d'.entries? = some es') (h : SameRules es es') :
    ruleEntries? d' = ruleEntries? d := by
  obtain ⟨rewritten, hsame, hperm⟩ := h
  have hmap : es.map ruleEntry? = rewritten.map ruleEntry? := by
    rw [← List.forall₂_eq_eq_eq, List.forall₂_map_left_iff, List.forall₂_map_right_iff]
    exact hsame.imp fun _ _ h => (ruleEntry?_of_sameEntry h).symm
  have hresults := mapM_perm (hmap ▸ hperm.map ruleEntry?)
  have hkeys : ∀ l, es.mapM ruleEntry? = some l → (l.map Prod.fst).Nodup := by
    intro l hl
    rw [keys_of_mapM_ruleEntry hl]
    exact (hd.of_entries? hes).1
  rw [ruleEntries?_of_entries? hes, ruleEntries?_of_entries? hes']
  generalize es.mapM ruleEntry? = r, es'.mapM ruleEntry? = r' at hresults hkeys
  cases hresults with
  | none => rfl
  | some hl => exact congrArg some (TextMap.ofList_eq_of_perm (hkeys _ rfl) hl).symm

/-! ### Documents -/

namespace Datum

/-- The entries of the section on rules; there are none if the section is missing. -/
def rulesTable (d : Datum) : List (String × Datum) :=
  ((d.get? "rules").bind entries?).getD []

/-- The table without an entry. -/
def without (d : Datum) (key : String) : Datum :=
  .scattered ((d.entries?.getD []).filter fun e => e.1 != key)

theorem get?_without (d : Datum) (key key' : String) :
    (d.without key).get? key' = if key' = key then none else d.get? key' := by
  rw [get?, without, entries?, Option.bind_some, TextMap.lookup_filter_ne, get?]
  cases d.entries? with
  | none => simp
  | some es => rfl

theorem get?_without_self (d : Datum) (key : String) : (d.without key).get? key = none := by
  rw [get?_without, if_pos rfl]

theorem get?_without_of_ne {key key' : String} (h : key' ≠ key) :
    (d.without key).get? key' = d.get? key' := by
  rw [get?_without, if_neg h]

theorem rulesTable_of_get? {r : Datum} (hr : d.get? "rules" = some r)
    (hes : r.entries? = some es) : d.rulesTable = es := by
  rw [rulesTable, hr, Option.bind_some, hes, Option.getD_some]

/-- An entry of the section stands in a table. -/
theorem exists_of_mem_rulesTable (he : e ∈ d.rulesTable) :
    ∃ r es, d.get? "rules" = some r ∧ r.entries? = some es ∧ e ∈ es := by
  cases hes : (d.get? "rules").bind entries? with
  | none =>
    rw [rulesTable, hes] at he
    cases he
  | some es =>
    obtain ⟨r, hr, hentries⟩ := Option.bind_eq_some_iff.mp hes
    rw [rulesTable_of_get? hr hentries] at he
    exact ⟨r, es, hr, hentries, he⟩

theorem Regular.of_mem_rulesTable (hd : d.Regular) (he : e ∈ d.rulesTable) : e.2.Regular := by
  obtain ⟨r, es, hr, hes, hmem⟩ := exists_of_mem_rulesTable he
  exact ((hd.of_get? hr).of_entries? hes).2 e hmem

end Datum

/-- The documents agree but for the section on rules, and there they differ at most in the spelling
of options, and in the order of options and rules. -/
structure SameDocument (d d' : Datum) : Prop where
  /-- The other sections are the same. -/
  others : ∀ key ≠ "rules", d'.get? key = d.get? key
  /-- The sections on rules are the same but for spelling and order. -/
  rules : d'.get? "rules" = d.get? "rules" ∨
    ∃ r r' es es', d.get? "rules" = some r ∧ d'.get? "rules" = some r' ∧
      r.entries? = some es ∧ r'.entries? = some es' ∧ SameRules es es'

/-! ### Data compared -/

namespace Datum

mutual

/-- The data are the same, and there is no double in them. -/
def same : Datum → Datum → Bool
  | .null, .null => true
  | .bool a, .bool b => a == b
  | .int m, .int n => m == n
  | .text s, .text t => s == t
  | .list l, .list m => sameItems l m
  | .table es, .table fs => sameEntries es fs
  | .scattered es, .scattered fs => sameEntries es fs
  | _, _ => false

/-- The lists hold the same data. -/
def sameItems : List Datum → List Datum → Bool
  | [], [] => true
  | d :: l, e :: m => d.same e && sameItems l m
  | _, _ => false

/-- The tables hold the same data under the same keys. -/
def sameEntries : List (String × Datum) → List (String × Datum) → Bool
  | [], [] => true
  | (k, d) :: es, (k', e) :: fs => k == k' && d.same e && sameEntries es fs
  | _, _ => false

end

mutual

theorem eq_of_same {d e : Datum} (h : d.same e = true) : d = e := by
  cases d <;> cases e <;> simp only [same, Bool.false_eq_true, beq_iff_eq] at h
  · rfl
  · rw [h]
  · rw [h]
  · rw [h]
  · rw [eq_of_sameItems h]
  · rw [eq_of_sameEntries h]
  · rw [eq_of_sameEntries h]

theorem eq_of_sameItems {l m : List Datum} (h : sameItems l m = true) : l = m := by
  cases l <;> cases m <;> simp only [sameItems, Bool.false_eq_true, Bool.and_eq_true] at h
  · rfl
  · rw [eq_of_same h.1, eq_of_sameItems h.2]

theorem eq_of_sameEntries {es fs : List (String × Datum)} (h : sameEntries es fs = true) :
    es = fs := by
  cases es <;> cases fs <;>
    simp only [sameEntries, Bool.false_eq_true, Bool.and_eq_true, beq_iff_eq] at h
  · rfl
  · next e _ f _ =>
    rw [eq_of_sameEntries h.2, Prod.ext h.1.1 (eq_of_same h.1.2)]

end

end Datum

/-- What a text writes can be checked by going through it. -/
theorem Toml.read?_of_same {text : String} {d : Datum}
    (h : (read? text).any (fun e => e.same d) = true) : read? text = some d := by
  obtain ⟨e, he, hsame⟩ := (Option.any_eq_true _ _).mp h
  rw [he, Datum.eq_of_same hsame]

namespace Config

variable {c : Config}

/-- All but the truth values and tables of the section on rules can be read: the section is a table
if it is there, what else stands in it can be read, and the other sections give the
configuration. -/
structure RestDecodes (d : Datum) (c : Config) : Prop where
  /-- The section on rules is a table. -/
  table : ∀ r, d.get? "rules" = some r → ∃ es, r.entries? = some es
  /-- An entry of another kind can be read. -/
  entries : ∀ e ∈ d.rulesTable, ¬e.2.IsSwitchOrTable → ∃ x, ruleEntry? e = some x
  /-- The other sections can be read. -/
  sections : ofDatum? (d.without "rules") = some c

/-- The section on output is read apart from the one on rules. -/
theorem fieldOr_setOutput?_with_rules (c : Config) (rules : TextMap RuleEntry)
    (output : Option Datum) :
    fieldOr { c with rules } (setOutput? { c with rules }) output =
      (fieldOr c c.setOutput? output).map fun c => { c with rules } := by
  cases output with
  | none => rfl
  | some o =>
    rw [fieldOr, fieldOr, setOutput?, setOutput?]
    split
    · simp only [Option.bind_eq_bind, Option.map_bind, Option.pure_def, Function.comp_def,
        Option.map_some]
    · rfl

/-- So the section on rules may be read last. -/
theorem ofDatum?_with_rules {r : Datum} {rules : TextMap RuleEntry}
    (hr : d.get? "rules" = some r) (hrules : ruleEntries? r = some rules)
    (hc : ofDatum? (d.without "rules") = some c) : ofDatum? d = some { c with rules } := by
  rw [ofDatum?, Datum.get?_without_of_ne (by decide : "playlint" ≠ "rules"),
    Datum.get?_without_of_ne (by decide : "output" ≠ "rules"), Datum.get?_without_self] at hc
  obtain ⟨c₁, hfiles, houtput⟩ := Option.bind_eq_some_iff.mp hc
  have hread : fieldOr c₁ c₁.setOutput? (d.get? "output") = some c := houtput
  have hset : fieldOr c₁ c₁.setRules? (d.get? "rules") = some { c₁ with rules } := by
    rw [hr, fieldOr, setRules?, hrules, Option.map_some]
  rw [ofDatum?_eq_bind, beforeOutput?, hfiles, Option.bind_eq_bind, Option.bind_some, hset,
    Option.bind_some, fieldOr_setOutput?_with_rules, hread, Option.map_some]

/-- Without a section on rules nothing is said about any. -/
theorem rules_of_ofDatum? (hr : d.get? "rules" = none) (hc : ofDatum? d = some c) :
    c.rules = ∅ := by
  rw [ofDatum?, hr] at hc
  obtain ⟨c₁, hfiles, houtput⟩ := Option.bind_eq_some_iff.mp hc
  have hread : fieldOr c₁ c₁.setOutput? (d.get? "output") = some c := houtput
  have hrules : c₁.rules = ∅ := by
    cases hp : d.get? "playlint" with
    | none =>
      rw [hp] at hfiles
      cases hfiles
      rfl
    | some p =>
      rw [hp, fieldOr, setFiles?] at hfiles
      split at hfiles
      · simp only [Option.bind_eq_bind, Option.bind_eq_some_iff, Option.pure_def,
          Option.some.injEq] at hfiles
        obtain ⟨version, -, includes, -, excludes, -, rfl⟩ := hfiles
        rfl
      · cases hfiles
  rw [sameButOutput_of_fieldOr_setOutput? hread, hrules]

/-- **One broken entry is enough** to refuse the document. -/
theorem ofDatum?_of_broken (hd : d.Regular) (he : e ∈ d.rulesTable) (h : BrokenEntry e) :
    ofDatum? d = none := by
  obtain ⟨r, es, hr, hes, hmem⟩ := Datum.exists_of_mem_rulesTable he
  have hrules : ruleEntries? r = none := by
    rw [ruleEntries?_of_entries? hes, Option.map_eq_none_iff, Option.eq_none_iff_forall_not_mem]
    intro l hl
    obtain ⟨x, hx⟩ := exists_map_some_iff.mp ⟨l, mapM_eq_some_iff.mp hl⟩ e hmem
    rw [ruleEntry?_of_broken (hd.of_mem_rulesTable he) h] at hx
    cases hx
  have hset : ∀ c : Config, fieldOr c c.setRules? (d.get? "rules") = none := by
    intro c
    rw [hr, fieldOr, setRules?, hrules, Option.map_none]
  rw [ofDatum?_eq_bind, beforeOutput?, Option.bind_eq_none_iff]
  intro c hc
  obtain ⟨c₁, -, hc⟩ := Option.bind_eq_some_iff.mp hc
  rw [hset] at hc
  cases hc

/-- **Neither spelling nor order matters** for the configuration. -/
theorem ofDatum?_of_sameDocument (hd : d.Regular) (h : SameDocument d d') :
    ofDatum? d' = ofDatum? d := by
  have hrules : ∀ c : Config, fieldOr c c.setRules? (d'.get? "rules") =
      fieldOr c c.setRules? (d.get? "rules") := by
    intro c
    rcases h.rules with heq | ⟨r, r', es, es', hr, hr', hes, hes', hsame⟩
    · rw [heq]
    · rw [hr, hr', fieldOr, fieldOr, setRules?, setRules?,
        ruleEntries?_of_sameRules (hd.of_get? hr) hes hes' hsame]
  simp only [ofDatum?, hrules, h.others "playlint" (by decide), h.others "output" (by decide)]

/-- **What a configuration says of rules.** -/
theorem exists_rules (hd : d.Regular) (hrest : RestDecodes d c)
    (h : ∀ e ∈ d.rulesTable, ¬BrokenEntry e) :
    ∃ rules : TextMap RuleEntry, ofDatum? d = some { c with rules } ∧
      ∀ key entry, rules.get? key = some entry ↔
        ∃ e ∈ d.rulesTable, ruleEntry? e = some (key, entry) := by
  cases hr : d.get? "rules" with
  | none =>
    -- to leave out a section that is not there changes nothing
    have hsame : SameDocument d (d.without "rules") :=
      ⟨fun _ hkey => Datum.get?_without_of_ne hkey,
        .inl ((Datum.get?_without_self d "rules").trans hr.symm)⟩
    have hc : ofDatum? d = some c := by
      rw [← ofDatum?_of_sameDocument hd hsame, hrest.sections]
    have htable : d.rulesTable = [] := by
      rw [Datum.rulesTable, hr]
      rfl
    refine ⟨c.rules, hc, ?_⟩
    rw [rules_of_ofDatum? hr hc, htable]
    simp
  | some r =>
    obtain ⟨es, hes⟩ := hrest.table r hr
    have htable := Datum.rulesTable_of_get? hr hes
    have hread : ∀ e ∈ es, ∃ x, ruleEntry? e = some x := by
      intro e he
      rw [← htable] at he
      by_cases hkind : e.2.IsSwitchOrTable
      · obtain ⟨entry, hentry, -⟩ :=
          exists_ruleEntry? (hd.of_mem_rulesTable he) hkind (h e he)
        exact ⟨_, hentry⟩
      · exact hrest.entries e he hkind
    obtain ⟨l, hl⟩ := exists_map_some_iff.mpr hread
    have hrules : ruleEntries? r = some (.ofList l) := by
      rw [ruleEntries?_of_entries? hes, mapM_eq_some_iff.mpr hl, Option.map_some]
    refine ⟨.ofList l, ofDatum?_with_rules hr hrules hrest.sections, ?_⟩
    rw [htable]
    exact get?_of_ruleEntries? (hd.of_get? hr) hes hrules

/-- The data of a text with no other section than the one on rules. -/
def rulesAlone (es : List (String × Datum)) : Datum :=
  .scattered [("rules", .scattered es)]

theorem restDecodes_rulesAlone (h : ∀ e ∈ es, e.2.IsSwitchOrTable) :
    RestDecodes (rulesAlone es) {} where
  table := by
    intro r hr
    cases hr
    exact ⟨es, rfl⟩
  entries := fun e he hkind => absurd (h e he) hkind
  sections := rfl

theorem sameDocument_rulesAlone (h : SameRules es es') :
    SameDocument (rulesAlone es) (rulesAlone es') where
  others := by
    intro key hkey
    simp [rulesAlone, Datum.get?, Datum.entries?, TextMap.lookup_cons, hkey]
  rules := .inr ⟨_, _, es, es', rfl, rfl, rfl, rfl, h⟩

/-- **Options are read strictly, whatever their spelling and order.**  Any broken entry of the
section on rules makes a text malformed.  Without one, all truth values and tables in the section
are read, and if the rest is read as well, then the text writes a configuration that says of each
rule what its entry says, and that is otherwise as without the section.  Another spelling of options
and another order of options and rules make no difference. -/
theorem parse_ruleTables {text : String} (hd : Toml.read? text = some d) :
    ((∃ e ∈ d.rulesTable, BrokenEntry e) → parse text = .error .malformed) ∧
      ((∀ e ∈ d.rulesTable, ¬BrokenEntry e) →
        (∀ e ∈ d.rulesTable, e.2.IsSwitchOrTable →
          ∃ entry, ruleEntry? e = some (e.1, entry) ∧ entry.ReadFrom e.2) ∧
        ∀ c, RestDecodes d c → ∃ rules : TextMap RuleEntry,
          parse text = ({ c with rules } : Config).validate ∧
            ∀ key entry, rules.get? key = some entry ↔
              ∃ e ∈ d.rulesTable, ruleEntry? e = some (key, entry)) ∧
      ∀ d', SameDocument d d' →
        ofDatum? d' = ofDatum? d ∧
          ∀ text', Toml.read? text' = some d' → parse text' = parse text := by
  have hregular := Toml.regular_of_read? hd
  refine ⟨?_, fun h => ⟨fun e he hkind => ?_, fun c hrest => ?_⟩, fun d' hsame => ⟨?_, ?_⟩⟩
  · rintro ⟨e, he, hbroken⟩
    rw [parse_eq_malformed_iff, hd, Option.bind_some, ofDatum?_of_broken hregular he hbroken]
  · exact exists_ruleEntry? (hregular.of_mem_rulesTable he) hkind (h e he)
  · obtain ⟨rules, hrules, hentries⟩ := exists_rules hregular hrest h
    exact ⟨rules, parse_of_ofDatum? hd hrules, hentries⟩
  · exact ofDatum?_of_sameDocument hregular hsame
  · intro text' hd'
    rw [parse, parse, hd, hd', Option.bind_some, Option.bind_some,
      ofDatum?_of_sameDocument hregular hsame]

/-- Options under their names. -/
def optionsByName : String :=
  "[rules]\n" ++
  "must_include_collections = false\n" ++
  "[rules.email-address-validation]\n" ++
  "severity = \"LOW\"\n" ++
  "allowed_email_domains = [\"a.org\"]\n"

/-- The same options, one of them under its alias, in another order. -/
def optionsByAlias : String :=
  "[rules.email-address-validation]\n" ++
  "allowed_domains = [\"a.org\"]\n" ++
  "severity = \"LOW\"\n" ++
  "[rules]\n" ++
  "must_include_collections = false\n"

/-- What the text with names writes. -/
def entriesByName : List (String × Datum) :=
  [("must_include_collections", .bool false), ("email-address-validation",
    .scattered [("severity", .text "LOW"), ("allowed_email_domains", .texts ["a.org"])])]

/-- What the text with an alias writes. -/
def entriesByAlias : List (String × Datum) :=
  [("email-address-validation",
    .scattered [("allowed_domains", .texts ["a.org"]), ("severity", .text "LOW")]),
    ("must_include_collections", .bool false)]

theorem read?_optionsByName : Toml.read? optionsByName = some (rulesAlone entriesByName) :=
  Toml.read?_of_same (by decide +kernel)

theorem read?_optionsByAlias : Toml.read? optionsByAlias = some (rulesAlone entriesByAlias) :=
  Toml.read?_of_same (by decide +kernel)

theorem sameRules_entriesByAlias : SameRules entriesByName entriesByAlias := by
  refine ⟨entriesByAlias.reverse, .cons ⟨rfl, .inl rfl⟩ (.cons ?_ .nil), .swap _ _ _⟩
  refine ⟨rfl, .inr ⟨_, _, rfl, rfl,
    [("severity", .text "LOW"), ("allowed_domains", .texts ["a.org"])], ?_, .swap _ _ _⟩⟩
  exact .cons ⟨rfl, .inl rfl⟩
    (.cons ⟨rfl, .inr ⟨.allowedEmailDomains, by decide, by decide⟩⟩ .nil)

theorem parse_ruleTables_optionsByAlias :
    parse optionsByAlias = parse optionsByName ∧
      ∃ rules : TextMap RuleEntry, parse optionsByName = ({ rules } : Config).validate ∧
        rules.get? "must_include_collections" = some (.enabled false) ∧
        rules.get? "email-address-validation" =
          some (.settings { severity := some .low, allowedEmailDomains := some ["a.org"] }) := by
  obtain ⟨-, hread, hsame⟩ := parse_ruleTables read?_optionsByName
  have hentries : ∀ e ∈ entriesByName, e.2.IsSwitchOrTable ∧ ∃ x, ruleEntry? e = some x := by
    intro e he
    rcases List.mem_pair.mp he with rfl | rfl
    · exact ⟨.inl ⟨false, rfl⟩, _, rfl⟩
    · exact ⟨.inr ⟨_, rfl⟩, _, rfl⟩
  have hsound : ∀ e ∈ entriesByName, ¬BrokenEntry e := by
    intro e he hbroken
    have hregular := Toml.regular_of_read? read?_optionsByName
    obtain ⟨-, x, hx⟩ := hentries e he
    rw [ruleEntry?_of_broken (hregular.of_mem_rulesTable he) hbroken] at hx
    cases hx
  obtain ⟨rules, hparse, hrules⟩ :=
    (hread hsound).2 {} (restDecodes_rulesAlone fun e he => (hentries e he).1)
  refine ⟨?_, rules, hparse, (hrules _ _).mpr ⟨_, List.mem_cons_self, rfl⟩,
    (hrules _ _).mpr ⟨_, List.mem_cons_of_mem _ List.mem_cons_self, rfl⟩⟩
  exact (hsame _ (sameDocument_rulesAlone sameRules_entriesByAlias)).2 _ read?_optionsByAlias

/-- A severity that is the only element of a list. -/
def severityInList : String :=
  "[rules.email-address-validation]\n" ++
  "severity = [\"HIGH\"]\n"

/-- What this text writes. -/
def entriesInList : List (String × Datum) :=
  [("email-address-validation", .scattered [("severity", .texts ["HIGH"])])]

theorem read?_severityInList : Toml.read? severityInList = some (rulesAlone entriesInList) :=
  Toml.read?_of_same (by decide +kernel)

/-- It is not enough that a severity is no number, no truth value and no text but one of the six
names. -/
theorem ruleEntry?_severityInList :
    ¬ ∀ (text : String) (d : Datum) (e : String × Datum) (es : List (String × Datum)),
      Toml.read? text = some d → RestDecodes d {} → e ∈ d.rulesTable → IsRuleIdText e.1 →
      e.2.entries? = some es → (∀ x ∈ es, ∃ o : RuleOption, x.1 ∈ o.keys) →
      (es.map fun x => RuleOption.ofKey? x.1).Nodup →
      (∀ x ∈ es, x.1 = "severity" → (∀ n, x.2 ≠ .int n) ∧ (∀ f, x.2 ≠ .float f) ∧
        (∀ b, x.2 ≠ .bool b) ∧ ∀ s, x.2 = .text s → ∃ v : Severity, s = v.text) →
      (∀ x ∈ es, x.1 ≠ "severity" → ∃ l, x.2 = .texts l) →
      ∃ entry, ruleEntry? e = some entry := by
  intro h
  have hrest : RestDecodes (rulesAlone entriesInList) {} := by
    refine restDecodes_rulesAlone ?_
    rw [entriesInList, List.forall_mem_singleton]
    exact .inr ⟨_, rfl⟩
  obtain ⟨entry, hentry⟩ := h _ _ _ _ read?_severityInList hrest List.mem_cons_self (by decide)
    rfl (by simpa using ⟨RuleOption.severity, by decide⟩) (by simp) (by simp [Datum.texts])
    (by simp)
  cases hentry

end Config

end PlaybookPolicy
