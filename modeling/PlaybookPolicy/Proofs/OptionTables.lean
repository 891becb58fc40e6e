import Mathlib.Data.List.Nodup
import Mathlib.Data.List.Perm.Basic
import PlaybookPolicy.Config.Decode
import PlaybookPolicy.Proofs.DecodedText
import PlaybookPolicy.Proofs.TomlTables

/-!
# Tables of options

The settings of a rule are a table of options.  It is read strictly: every key must be an option
under one of its spellings, no option may stand under both of its spellings, and beside each option
there must be what it takes.  The options do not depend on each other, so they may be set in any
order, and then the settings say neither more nor less than the table.

## Main definitions

* `RuleOption.keys` — the spellings of an option.
* `RuleOption.Accepts` — what may stand beside an option.
* `BrokenTable` — the faults of a table of options.
* `RuleSettings.Holds` — what settings say for an option, as data.
* `RuleSettings.ReadFrom` — the settings say what the table says.
* `SameTable` — tables that differ in the spelling and the order of their keys.

## Main results

* `RuleSettings.setAll?_perm` — options may be set in any order.
* `RuleSettings.ofDatum?_of_broken` — **a broken table is refused.**
* `RuleSettings.exists_readFrom` — **every other table is read, with all that it says.**
* `RuleSettings.ofDatum?_of_sameTable` — **neither spelling nor order matters.**
-/

namespace PlaybookPolicy

/-! ### Lists in another order -/

theorem exists_of_perm_map {α β : Type} {f : α → β} {l : List β} {r : List α}
    (h : l.Perm (r.map f)) : ∃ r' : List α, l = r'.map f ∧ r'.Perm r :=
  (congrFun₂ (List.eq_map_comp_perm f) l r).mpr h

/-- Going through elements in another order gives the results in another order, or fails as well. -/
theorem mapM_perm {α β γ : Type} {f : α → Option γ} {g : β → Option γ} {l : List α} {m : List β}
    (h : (l.map f).Perm (m.map g)) : Option.Rel List.Perm (l.mapM f) (m.mapM g) := by
  cases hl : l.mapM f with
  | some r =>
    rw [mapM_eq_some_iff.mp hl] at h
    obtain ⟨r', hm, hperm⟩ := exists_of_perm_map h.symm
    rw [mapM_eq_some_iff.mpr hm]
    exact .some hperm.symm
  | none =>
    cases hm : m.mapM g with
    | none => exact .none
    | some r =>
      rw [mapM_eq_some_iff.mp hm] at h
      obtain ⟨r', hl', -⟩ := exists_of_perm_map h
      rw [mapM_eq_some_iff.mpr hl'] at hl
      cases hl

/-! ### What options take -/

namespace Datum

variable {d : Datum}

theorem Regular.isNull (h : d.Regular) : d.isNull = false := by
  cases h <;> rfl

theorem Regular.optional? {α : Type} (h : d.Regular) (read : Datum → Option α) :
    d.optional? read = (read d).map some := by
  rw [Datum.optional?, h.isNull, if_neg Bool.false_ne_true]

/-- Where nothing is null, a choice is its name. -/
theorem Regular.choice? {α : Type} (h : d.Regular) (ofName : String → Option α) :
    choice? ofName Datum.isNull d = d.text?.bind ofName := by
  cases h with
  | @table entries hkeys h =>
    match entries with
    | [] | _ :: _ :: _ => rfl
    | [e] =>
      have hnull := (h e List.mem_cons_self).isNull
      rw [PlaybookPolicy.choice?, hnull]
      rfl
  | @scattered entries hkeys h =>
    match entries with
    | [] => rfl
    | e :: _ =>
      have hnull := (h e List.mem_cons_self).isNull
      rw [PlaybookPolicy.choice?, hnull]
      rfl
  | _ => rfl

theorem text?_eq_some_iff {s : String} : d.text? = some s ↔ d = .text s := by
  cases d <;> simp [text?]

theorem texts?_eq_some_iff {l : List String} : d.texts? = some l ↔ d = .texts l := by
  cases d with
  | list items =>
    have hmap : items.map text? = l.map some ↔ items = l.map .text := by
      rw [← List.forall₂_eq_eq_eq, ← List.forall₂_eq_eq_eq, List.forall₂_map_left_iff,
        List.forall₂_map_right_iff, List.forall₂_map_right_iff]
      simp only [text?_eq_some_iff]
    rw [texts?, mapM_eq_some_iff, hmap, texts, Datum.list.injEq]
  | _ => simp [texts?, texts]

end Datum

theorem Severity.ofText?_eq_some_iff {s : String} {v : Severity} :
    ofText? s = some v ↔ s = v.text := by
  constructor
  · intro h
    rw [ofText?] at h
    have hname := List.find?_some h
    exact (beq_iff_eq.mp hname).symm
  · rintro rfl
    exact ofText?_text v

theorem Severity.ofDatum?_eq_some_iff {d : Datum} {v : Severity} (h : d.Regular) :
    ofDatum? d = some v ↔ d = .text v.text := by
  simp only [ofDatum?, h.choice?, Option.bind_eq_some_iff, Datum.text?_eq_some_iff,
    ofText?_eq_some_iff, exists_eq_right]

namespace RuleOption

/-- The spellings of an option: its name, and the alias of a list. -/
def keys : RuleOption → List String
  | severity => ["severity"]
  | allowedEmailDomains => ["allowed_email_domains", "allowed_domains"]
  | mandatoryCollections => ["mandatory_collections", "mandatorycollections"]

/-- What may stand beside an option: the name of a severity, or a list of texts. -/
def Accepts : RuleOption → Datum → Prop
  | severity, d => ∃ v : Severity, d = .text v.text
  | allowedEmailDomains, d => ∃ l, d = .texts l
  | mandatoryCollections, d => ∃ l, d = .texts l

theorem ofKey?_eq_some_iff {key : String} {o : RuleOption} :
    ofKey? key = some o ↔ key ∈ o.keys := by
  rw [ofKey?]
  constructor
  · intro h
    split_ifs at h <;> cases h <;> simp_all [keys]
  · intro h
    cases o <;> simp only [keys, List.mem_cons, List.not_mem_nil, or_false] at h
    · subst h; rfl
    · rcases h with rfl | rfl <;> rfl
    · rcases h with rfl | rfl <;> rfl

end RuleOption

namespace RuleSettings

variable {s s' : RuleSettings} {o o' : RuleOption} {d d' : Datum}
  {opts opts' : List (RuleOption × Datum)} {es es' : List (String × Datum)}

/-- The settings say for the option what the datum says. -/
def Holds (s : RuleSettings) : RuleOption → Datum → Prop
  | .severity, d => ∃ v, s.severity = some v ∧ d = .text v.text
  | .allowedEmailDomains, d => ∃ l, s.allowedEmailDomains = some l ∧ d = .texts l
  | .mandatoryCollections, d => ∃ l, s.mandatoryCollections = some l ∧ d = .texts l

theorem not_holds_empty : ¬({} : RuleSettings).Holds o d := by
  cases o <;> simp [Holds]

/-! ### Setting options -/

/-- An option can be set to what it takes, and to nothing else. -/
theorem isSome_set?_iff (hd : d.Regular) : (s.set? o d).isSome ↔ o.Accepts d := by
  cases o <;>
    simp only [set?, hd.optional?, Option.map_map, Option.isSome_map, Option.isSome_iff_exists,
      RuleOption.Accepts, Datum.texts?_eq_some_iff, Severity.ofDatum?_eq_some_iff hd]

/-- A set option has its new value, and the others stay as they were. -/
theorem holds_of_set? (hd : d.Regular) (h : s.set? o d = some s') :
    s'.Holds o' d' ↔ o' = o ∧ d' = d ∨ o' ≠ o ∧ s.Holds o' d' := by
  cases o <;>
    simp only [set?, hd.optional?, Option.map_map, Option.map_eq_some_iff,
      Datum.texts?_eq_some_iff, Severity.ofDatum?_eq_some_iff hd] at h <;>
    obtain ⟨v, rfl, rfl⟩ := h <;>
    cases o' <;>
    simp [Holds]

/-- Two options may be set in either order. -/
theorem set?_comm (h : o ≠ o') :
    ((s.set? o d).bind fun s => s.set? o' d') = (s.set? o' d').bind fun s => s.set? o d := by
  cases o <;> cases o' <;> first
    | exact absurd rfl h
    | simp only [set?]
      cases d.optional? _ <;> cases d'.optional? _ <;> rfl

/-- **Options may be set in any order.** -/
theorem setAll?_perm (h : opts.Perm opts') (hopts : (opts.map Prod.fst).Nodup) :
    s.setAll? opts = s.setAll? opts' := by
  induction h generalizing s with
  | nil => rfl
  | cons e _ ih =>
    rw [setAll?, setAll?]
    exact Option.bind_congr fun _ _ => ih (List.nodup_cons.mp hopts).2
  | swap e e' l =>
    have hne : e'.1 ≠ e.1 := fun heq => (List.nodup_cons.mp hopts).1 (heq ▸ List.mem_cons_self)
    simp only [setAll?]
    rw [← Option.bind_assoc, ← Option.bind_assoc, set?_comm hne]
  | trans h _ ih ih' => rw [ih hopts, ih' ((h.map Prod.fst).nodup hopts)]

theorem isSome_setAll?_iff (hdata : ∀ e ∈ opts, e.2.Regular) :
    (s.setAll? opts).isSome ↔ ∀ e ∈ opts, e.1.Accepts e.2 := by
  induction opts generalizing s with
  | nil => simp [setAll?]
  | cons e opts ih =>
    rw [List.forall_mem_cons] at hdata ⊢
    rw [← isSome_set?_iff (s := s) hdata.1, setAll?]
    cases s.set? e.1 e.2 with
    | none => simp
    | some s' =>
      rw [Option.bind_some, ih hdata.2]
      simp

/-- Settings say what was set last, or else what they said before. -/
theorem holds_of_setAll? (hdata : ∀ e ∈ opts, e.2.Regular) (hopts : (opts.map Prod.fst).Nodup)
    (h : s.setAll? opts = some s') :
    s'.Holds o d ↔ (o, d) ∈ opts ∨ o ∉ opts.map Prod.fst ∧ s.Holds o d := by
  induction opts generalizing s with
  | nil =>
    cases h
    simp
  | cons e opts ih =>
    obtain ⟨s₁, hset, hrest⟩ := Option.bind_eq_some_iff.mp h
    rw [List.forall_mem_cons] at hdata
    rw [List.map_cons, List.nodup_cons] at hopts
    rw [ih hdata.2 hopts.2 hrest, holds_of_set? hdata.1 hset]
    by_cases heq : o = e.1
    · have hnot : (e.1, d) ∉ opts := fun hmem =>
        hopts.1 (List.mem_map.mpr ⟨_, hmem, rfl⟩)
      subst heq
      simp [hopts.1, hnot, Prod.ext_iff]
    · simp [heq, Prod.ext_iff]

end RuleSettings

/-! ### Tables -/

/-- The faults of a table of options. -/
inductive BrokenTable (es : List (String × Datum)) : Prop
  /-- A key that is no spelling of an option. -/
  | unknownKey {e : String × Datum} (he : e ∈ es) (hkey : ∀ o : RuleOption, e.1 ∉ o.keys)
  /-- An option under both of its spellings. -/
  | bothSpellings {o : RuleOption} {e e' : String × Datum} (he : e ∈ es) (he' : e' ∈ es)
      (hkey : e.1 ∈ o.keys) (hkey' : e'.1 ∈ o.keys) (hne : e.1 ≠ e'.1)
  /-- Something beside an option that it does not take. -/
  | badValue {o : RuleOption} {e : String × Datum} (he : e ∈ es) (hkey : e.1 ∈ o.keys)
      (hvalue : ¬o.Accepts e.2)

/-- The entries have the same value, under spellings of one option. -/
def SameOption (e e' : String × Datum) : Prop :=
  e'.2 = e.2 ∧ (e'.1 = e.1 ∨ ∃ o : RuleOption, e.1 ∈ o.keys ∧ e'.1 ∈ o.keys)

/-- Options may be spelled in another way, and the entries may stand in another order. -/
def SameTable (es es' : List (String × Datum)) : Prop :=
  ∃ respelled, List.Forall₂ SameOption es respelled ∧ respelled.Perm es'

namespace RuleSettings

variable {s : RuleSettings} {o : RuleOption} {d d' : Datum} {opts : List (RuleOption × Datum)}
  {es es' : List (String × Datum)}

/-- The settings say for every option what the table says, and nothing else. -/
def ReadFrom (s : RuleSettings) (es : List (String × Datum)) : Prop :=
  ∀ o d, s.Holds o d ↔ ∃ key ∈ o.keys, (key, d) ∈ es

theorem keyedOption?_eq_some_iff {e : String × Datum} :
    keyedOption? e = some (o, d) ↔ e.1 ∈ o.keys ∧ e.2 = d := by
  simp [keyedOption?, RuleOption.ofKey?_eq_some_iff]

theorem keyedOptions?_eq_some_iff :
    keyedOptions? es = some opts ↔
      es.map keyedOption? = opts.map some ∧ (opts.map Prod.fst).Nodup := by
  rw [keyedOptions?, Option.filter_eq_some_iff, decide_eq_true_iff, mapM_eq_some_iff]

/-- Two entries for one option would set it twice. -/
theorem nodup_iff_of_map_keyedOption? (h : es.map keyedOption? = opts.map some) :
    (opts.map Prod.fst).Nodup ↔ (es.map fun e => RuleOption.ofKey? e.1).Nodup := by
  have hoptions : (es.map fun e => RuleOption.ofKey? e.1) = (opts.map Prod.fst).map some := by
    have hfirst := congrArg (List.map (Option.map Prod.fst)) h
    simpa [List.map_map, Function.comp_def, keyedOption?] using hfirst
  rw [hoptions, List.nodup_map_iff fun _ _ => Option.some.inj]

theorem mem_iff_of_keyedOptions? (h : keyedOptions? es = some opts) :
    (o, d) ∈ opts ↔ ∃ key ∈ o.keys, (key, d) ∈ es := by
  have hmap := (keyedOptions?_eq_some_iff.mp h).1
  calc (o, d) ∈ opts ↔ some (o, d) ∈ opts.map some := by simp
    _ ↔ ∃ e ∈ es, keyedOption? e = some (o, d) := by rw [← hmap, List.mem_map]
    _ ↔ ∃ key ∈ o.keys, (key, d) ∈ es := by
      simp only [keyedOption?_eq_some_iff, Prod.exists]
      constructor
      · rintro ⟨key, _, he, hkey, rfl⟩
        exact ⟨key, hkey, he⟩
      · rintro ⟨key, hkey, he⟩
        exact ⟨key, d, he, hkey, rfl⟩

theorem ofDatum?_of_entries? (h : d.entries? = some es) :
    ofDatum? d = (keyedOptions? es).bind (setAll? {}) := by
  cases d with
  | table entries => cases h; rfl
  | scattered entries => cases h; rfl
  | _ => cases h

/-- The data beside options are those of the table. -/
theorem regular_of_keyedOptions? (hes : ∀ e ∈ es, e.2.Regular) (h : keyedOptions? es = some opts) :
    ∀ e ∈ opts, e.2.Regular := by
  intro e he
  obtain ⟨key, -, hmem⟩ := (mem_iff_of_keyedOptions? h).mp he
  exact hes _ hmem

/-- **A broken table is refused.** -/
theorem ofDatum?_of_broken (hd : d.Regular) (hes : d.entries? = some es) (h : BrokenTable es) :
    ofDatum? d = none := by
  rw [ofDatum?_of_entries? hes, Option.bind_eq_none_iff]
  intro opts hopts
  obtain ⟨hmap, hnodup⟩ := keyedOptions?_eq_some_iff.mp hopts
  cases h with
  | unknownKey he hkey =>
    obtain ⟨⟨o, d⟩, hkeyed⟩ := exists_map_some_iff.mp ⟨opts, hmap⟩ _ he
    exact absurd (keyedOption?_eq_some_iff.mp hkeyed).1 (hkey o)
  | @bothSpellings o e e' he he' hkey hkey' hne =>
    rw [nodup_iff_of_map_keyedOption? hmap] at hnodup
    have hsame : RuleOption.ofKey? e.1 = RuleOption.ofKey? e'.1 := by
      rw [RuleOption.ofKey?_eq_some_iff.mpr hkey, RuleOption.ofKey?_eq_some_iff.mpr hkey']
    have heq := List.inj_on_of_nodup_map hnodup he he' hsame
    exact absurd (congrArg Prod.fst heq) hne
  | @badValue o e he hkey hvalue =>
    have hdata := regular_of_keyedOptions? (hd.of_entries? hes).2 hopts
    have hmem : (o, e.2) ∈ opts := (mem_iff_of_keyedOptions? hopts).mpr ⟨e.1, hkey, he⟩
    rw [← Option.not_isSome_iff_eq_none, isSome_setAll?_iff hdata]
    exact fun haccepts => hvalue (haccepts _ hmem)

/-- Without a fault in it, a table sets each of its options once. -/
theorem exists_keyedOptions? (hkeys : (es.map Prod.fst).Nodup) (h : ¬BrokenTable es) :
    ∃ opts, keyedOptions? es = some opts := by
  have hkeyed : ∀ e ∈ es, ∃ x, keyedOption? e = some x := by
    intro e he
    by_contra hnone
    refine h (.unknownKey he fun o hkey => hnone ⟨(o, e.2), ?_⟩)
    exact keyedOption?_eq_some_iff.mpr ⟨hkey, rfl⟩
  obtain ⟨opts, hmap⟩ := exists_map_some_iff.mpr hkeyed
  refine ⟨opts, keyedOptions?_eq_some_iff.mpr ⟨hmap, ?_⟩⟩
  rw [nodup_iff_of_map_keyedOption? hmap]
  refine List.Nodup.map_on ?_ hkeys.of_map
  intro e he e' he' hsame
  obtain ⟨⟨o, d⟩, hx⟩ := hkeyed e he
  have hkey := (keyedOption?_eq_some_iff.mp hx).1
  have hkey' := RuleOption.ofKey?_eq_some_iff.mp
    (hsame.symm.trans (RuleOption.ofKey?_eq_some_iff.mpr hkey))
  refine List.inj_on_of_nodup_map hkeys he he' ?_
  by_contra hne
  exact h (.bothSpellings he he' hkey hkey' hne)

/-- **Every other table is read, with all that it says.** -/
theorem exists_readFrom (hd : d.Regular) (hes : d.entries? = some es) (h : ¬BrokenTable es) :
    ∃ s, ofDatum? d = some s ∧ s.ReadFrom es := by
  obtain ⟨hkeys, hregular⟩ := hd.of_entries? hes
  obtain ⟨opts, hopts⟩ := exists_keyedOptions? hkeys h
  have hdata := regular_of_keyedOptions? hregular hopts
  have haccepts : ∀ x ∈ opts, x.1.Accepts x.2 := by
    intro x hx
    obtain ⟨key, hkey, he⟩ := (mem_iff_of_keyedOptions? hopts).mp hx
    by_contra hvalue
    exact h (.badValue he hkey hvalue)
  obtain ⟨s, hs⟩ := Option.isSome_iff_exists.mp ((isSome_setAll?_iff hdata).mpr haccepts)
  refine ⟨s, ?_, fun o d => ?_⟩
  · rw [ofDatum?_of_entries? hes, hopts, Option.bind_some, hs]
  · rw [holds_of_setAll? hdata (keyedOptions?_eq_some_iff.mp hopts).2 hs,
      mem_iff_of_keyedOptions? hopts]
    simp [not_holds_empty]

/-- **Neither spelling nor order matters.** -/
theorem ofDatum?_of_sameTable (hes : d.entries? = some es) (hes' : d'.entries? = some es')
    (h : SameTable es es') : ofDatum? d' = ofDatum? d := by
  obtain ⟨respelled, hsame, hperm⟩ := h
  have hkeyed : ∀ {e e'}, SameOption e e' → keyedOption? e = keyedOption? e' := by
    rintro e e' ⟨hvalue, hkey | ⟨o, hkey, hkey'⟩⟩
    · rw [keyedOption?, keyedOption?, hkey, hvalue]
    · rw [keyedOption?, keyedOption?, RuleOption.ofKey?_eq_some_iff.mpr hkey,
        RuleOption.ofKey?_eq_some_iff.mpr hkey', hvalue]
  have hmap : es.map keyedOption? = respelled.map keyedOption? := by
    rw [← List.forall₂_eq_eq_eq, List.forall₂_map_left_iff, List.forall₂_map_right_iff]
    exact hsame.imp fun _ _ h => hkeyed h
  have hresults := mapM_perm (hmap ▸ hperm.map keyedOption?)
  rw [ofDatum?_of_entries? hes, ofDatum?_of_entries? hes', keyedOptions?, keyedOptions?]
  generalize es.mapM keyedOption? = r, es'.mapM keyedOption? = r' at hresults
  cases hresults with
  | none => rfl
  | @some opts opts' hopts =>
    have hiff := (hopts.map Prod.fst).nodup_iff
    simp only [Option.filter_some, decide_eq_true_eq, ← hiff]
    split
    · next hnodup => exact (setAll?_perm hopts hnodup).symm
    · rfl

end RuleSettings

end PlaybookPolicy
