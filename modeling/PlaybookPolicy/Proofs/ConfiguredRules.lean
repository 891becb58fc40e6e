import PlaybookPolicy.Proofs.ExitCode
import PlaybookPolicy.Proofs.MapEntries
import PlaybookPolicy.Proofs.SoundConfig

/-!
# The rules of a configuration

A configuration may name rules that do not exist, and give a rule the option of another.  Then no
rules are made of it, and the first such id or option is reported.  Otherwise the rules that are on
are made, each with what its own settings say; an entry that switches a rule on or has no settings
in it says nothing.  A list that a configuration gives to an option replaces the built-in one, and
since a sound configuration has no blank entries, it does so whenever there is an entry in it.

## Main definitions

* `ListOption.make`, `ListOption.check` — the rule that has an option, and what it checks.
* `Config.IsUnknown` — a configuration says something of an id that no rule has.
* `Config.Misplaces` — a configuration gives a rule the option of another one.
* `Config.ruleOf` — the rule that a configuration makes.

## Main results

* `ListOption.make_eq` — when a rule is made, and which.
* `Registry.addConfigured_eq_error_iff` — the first rule that cannot be made is reported.
* `Registry.rules_eq` — the rules are those that are on, in order.
* `Registry.ofConfig_exact` — **what rules a configuration makes, and what it is refused for.**
* `Registry.options_of_parse` — **a list of the configuration replaces the built-in one.**
-/

namespace PlaybookPolicy

/-! ### One rule -/

namespace ListOption

/-- What the rule checks with a list. -/
def check : ListOption → List String → Check
  | allowedEmailDomains => fun l => .recipients ⟨l⟩
  | mandatoryCollections => fun l => .collections ⟨l⟩

/-- How the rule is made from settings. -/
def make : ListOption → Option RuleSettings → Except RuleError Rule
  | allowedEmailDomains => Rule.recipients
  | mandatoryCollections => Rule.collections

/-- The option of the other rule. -/
def other : ListOption → ListOption
  | allowedEmailDomains => mandatoryCollections
  | mandatoryCollections => allowedEmailDomains

variable {o o' : ListOption} {settings : Option RuleSettings}

theorem ne_iff_eq_other : o' ≠ o ↔ o' = o.other := by
  cases o <;> cases o' <;> decide

theorem rule_inj : o.rule = o'.rule ↔ o = o' := by
  cases o <;> cases o' <;> decide

theorem mem_all (o : ListOption) : o ∈ all := by
  cases o <;> decide

theorem builtinRules_eq : builtinRules = all.map fun o => (o.rule, o.make) :=
  rfl

theorem builtinIds_eq : builtinIds = all.map rule :=
  rfl

theorem check_allowedEmailDomains (settings : Option RuleSettings) :
    allowedEmailDomains.check (allowedEmailDomains.listFrom settings) =
      .recipients (match settings.bind (·.allowedEmailDomains) with
        | some l => AllowedDomains.ofList l
        | none => .builtin) := by
  rw [listFrom, written?]
  cases settings.bind (·.allowedEmailDomains) <;> rfl

theorem check_mandatoryCollections (settings : Option RuleSettings) :
    mandatoryCollections.check (mandatoryCollections.listFrom settings) =
      .collections (match settings.bind (·.mandatoryCollections) with
        | some l => MandatoryCollections.ofList l
        | none => .builtin) := by
  rw [listFrom, written?]
  cases settings.bind (·.mandatoryCollections) <;> rfl

/-- What the maker of a rule does: the option of the other rule is refused, even if its list is
empty. -/
theorem make_eq (o : ListOption) (settings : Option RuleSettings) :
    o.make settings =
      if (settings.bind o.other.written?).isSome then
        .error (.invalidOption o.rule.text o.other.name)
      else
        .ok { check := o.check (o.listFrom settings), severity := Rule.severityOf settings } := by
  cases o with
  | allowedEmailDomains =>
    rw [check_allowedEmailDomains]
    rfl
  | mandatoryCollections =>
    rw [check_mandatoryCollections]
    rfl

theorem make_eq_error_iff {e : RuleError} :
    o.make settings = .error e ↔ ∃ l, settings.bind o.other.written? = some l ∧
      e = .invalidOption o.rule.text o.other.name := by
  rw [make_eq]
  cases settings.bind o.other.written? <;> simp [eq_comm]

end ListOption

/-! ### What a configuration says -/

namespace Config

/-- The configuration says something of an id that no built-in rule has. -/
def IsUnknown (c : Config) (k : String) : Prop :=
  k ∈ c.rules.keys ∧ ∀ id ∈ builtinIds, id.text ≠ k

/-- The configuration gives the rule an option of another one. -/
def Misplaces (c : Config) (id : RuleId) (o : ListOption) : Prop :=
  o.rule ≠ id ∧ ∃ s l, c.rules.get? id.text = some (.settings s) ∧ o.written? s = some l

/-- The rule with the given option, as the configuration makes it. -/
def ruleOf (c : Config) (o : ListOption) : Rule where
  check := o.check (c.listOf o)
  severity := c.severityOf o.rule.text

variable {c : Config} {o : ListOption}

theorem settingsOf_eq_some_iff {id : String} {s : RuleSettings} :
    c.settingsOf id = some s ↔ c.rules.get? id = some (.settings s) := by
  rw [settingsOf]
  rcases c.rules.get? id with _ | _ | s' <;> simp [RuleEntry.settings?]

theorem id_ruleOf (c : Config) (o : ListOption) : (c.ruleOf o).id = o.rule := by
  cases o <;> rfl

theorem options_ruleOf (c : Config) (o : ListOption) :
    (c.ruleOf o).options = [(o.name, c.listOf o)] := by
  cases o <;> rfl

theorem misplaces_iff {o' : ListOption} :
    c.Misplaces o.rule o' ↔
      o' = o.other ∧ ∃ l, (c.settingsOf o.rule.text).bind o.other.written? = some l := by
  rw [Misplaces, Ne, ListOption.rule_inj, ← Ne, ListOption.ne_iff_eq_other]
  refine and_congr_right fun h => ?_
  subst h
  simp only [Option.bind_eq_some_iff, settingsOf_eq_some_iff]
  exact exists_comm

/-- A rule cannot be made if it is given the option of another one. -/
theorem make_eq_error_iff {e : RuleError} :
    o.make (c.settingsOf o.rule.text) = .error e ↔
      ∃ o', c.Misplaces o.rule o' ∧ e = .invalidOption o.rule.text o'.name := by
  simp only [ListOption.make_eq_error_iff, misplaces_iff]
  constructor
  · rintro ⟨l, hl, rfl⟩
    exact ⟨o.other, ⟨rfl, l, hl⟩, rfl⟩
  · rintro ⟨_, ⟨rfl, l, hl⟩, rfl⟩
    exact ⟨l, hl, rfl⟩

theorem exists_make_eq_ok_iff :
    (∃ r, o.make (c.settingsOf o.rule.text) = .ok r) ↔ ∀ o', ¬c.Misplaces o.rule o' := by
  constructor
  · rintro ⟨r, hr⟩ o' ho'
    cases hr.symm.trans (make_eq_error_iff.mpr ⟨o', ho', rfl⟩)
  · intro h
    cases hmake : o.make (c.settingsOf o.rule.text) with
    | ok r => exact ⟨r, rfl⟩
    | error e =>
      obtain ⟨o', ho', -⟩ := make_eq_error_iff.mp hmake
      exact absurd ho' (h o')

end Config

namespace Registry

open Config

variable {c d : Config} {g : Registry} {o : ListOption} {e : RuleError}
  {l : List (RuleId × (Option RuleSettings → Except RuleError Rule))}

/-! ### Ids that no rule has -/

theorem isUnknown_iff {k : String} :
    c.IsUnknown k ↔ k ∈ c.rules.keys ∧ (!builtinIds.any fun id => id.text == k) = true := by
  simp [IsUnknown]

theorem isUnknown_of_unknownId? {k : String} (h : unknownId? c = some k) : c.IsUnknown k := by
  obtain ⟨hk, before, after, hkeys, -⟩ := List.find?_eq_some_iff_append.mp h
  refine isUnknown_iff.mpr ⟨?_, hk⟩
  rw [hkeys]
  exact List.mem_append_right before List.mem_cons_self

theorem unknownId?_eq_none_iff : unknownId? c = none ↔ ∀ k, ¬c.IsUnknown k := by
  rw [unknownId?, List.find?_eq_none]
  simp only [isUnknown_iff, not_and]

/-- Of the unknown ids the least one is found. -/
theorem unknownId?_eq_some_iff {k : String} :
    unknownId? c = some k ↔ c.IsUnknown k ∧ ∀ k', c.IsUnknown k' → k ≤ k' := by
  have hleast : ∀ {k k'}, unknownId? c = some k → c.IsUnknown k' → k ≤ k' := by
    intro k k' h hk'
    obtain ⟨-, before, after, hkeys, hbefore⟩ := List.find?_eq_some_iff_append.mp h
    obtain ⟨hmem, hnone⟩ := isUnknown_iff.mp hk'
    have hsorted : c.rules.keys.Pairwise (· < ·) := List.pairwise_map.mpr c.rules.sorted
    rw [hkeys] at hmem hsorted
    rcases List.mem_append.mp hmem with hmem | hmem
    · -- what stands before the id found is known
      have hknown := hbefore k' hmem
      rw [hnone] at hknown
      cases hknown
    · rcases List.mem_cons.mp hmem with rfl | hmem
      · exact String.le_refl _
      · obtain ⟨-, hafter, -⟩ := List.pairwise_append.mp hsorted
        exact Std.le_of_lt ((List.pairwise_cons.mp hafter).1 k' hmem)
  constructor
  · intro h
    exact ⟨isUnknown_of_unknownId? h, fun k' hk' => hleast h hk'⟩
  · rintro ⟨hk, hle⟩
    cases hfound : unknownId? c with
    | none => exact absurd hk (unknownId?_eq_none_iff.mp hfound k)
    | some k' =>
      have heq : k' = k :=
        String.le_antisymm (hleast hfound hk) (hle k' (isUnknown_of_unknownId? hfound))
      rw [heq]

/-! ### Rules in order -/

theorem addConfigured_cons_of_error {x : RuleId × (Option RuleSettings → Except RuleError Rule)}
    (h : x.2 (c.settingsOf x.1.text) = .error e) : addConfigured c (x :: l) g = .error e := by
  rw [settingsOf] at h
  simp only [addConfigured, h]

theorem addConfigured_cons_of_ok {x : RuleId × (Option RuleSettings → Except RuleError Rule)}
    {r : Rule} (h : x.2 (c.settingsOf x.1.text) = .ok r) :
    addConfigured c (x :: l) g =
      addConfigured c l (if c.isOn x.1.text then g.register r else g) := by
  rw [settingsOf] at h
  simp only [addConfigured, h, isOn_eq]
  cases (c.rules.get? x.1.text).any fun e => !e.isEnabled <;> rfl

/-- The first rule that cannot be made is reported. -/
theorem addConfigured_eq_error_iff :
    addConfigured c l g = .error e ↔ ∃ before x after, l = before ++ x :: after ∧
      (∀ y ∈ before, ∃ r, y.2 (c.settingsOf y.1.text) = .ok r) ∧
        x.2 (c.settingsOf x.1.text) = .error e := by
  -- the rules already registered do not matter, so the induction is for any of them
  induction l generalizing g with
  | nil =>
    constructor
    · intro h
      cases h
    · rintro ⟨before, x, after, hl, -⟩
      simp at hl
  | cons y l ih =>
    cases hy : y.2 (c.settingsOf y.1.text) with
    | error e' =>
      rw [addConfigured_cons_of_error hy]
      constructor
      · intro h
        cases h
        exact ⟨[], y, l, rfl, fun _ h => absurd h List.not_mem_nil, hy⟩
      · rintro ⟨before, x, after, hl, hbefore, hx⟩
        cases before with
        | nil =>
          cases hl
          cases hy.symm.trans hx
          rfl
        | cons z before =>
          cases hl
          obtain ⟨r, hr⟩ := hbefore y List.mem_cons_self
          cases hy.symm.trans hr
    | ok r =>
      rw [addConfigured_cons_of_ok hy, ih]
      constructor
      · rintro ⟨before, x, after, rfl, hbefore, hx⟩
        exact ⟨y :: before, x, after, rfl, List.forall_mem_cons.mpr ⟨⟨r, hy⟩, hbefore⟩, hx⟩
      · rintro ⟨before, x, after, hl, hbefore, hx⟩
        cases before with
        | nil =>
          cases hl
          cases hy.symm.trans hx
        | cons z before =>
          cases hl
          exact ⟨before, x, after, rfl, (List.forall_mem_cons.mp hbefore).2, hx⟩

/-- All rules are made, or none is. -/
theorem exists_addConfigured_iff :
    (∃ g', addConfigured c l g = .ok g') ↔ ∀ x ∈ l, ∃ r, x.2 (c.settingsOf x.1.text) = .ok r := by
  induction l generalizing g with
  | nil => exact ⟨fun _ _ h => absurd h List.not_mem_nil, fun _ => ⟨g, rfl⟩⟩
  | cons y l ih =>
    rw [List.forall_mem_cons]
    cases hy : y.2 (c.settingsOf y.1.text) with
    | error e' => simp [addConfigured_cons_of_error hy]
    | ok r =>
      rw [addConfigured_cons_of_ok hy, ih]
      exact ⟨fun h => ⟨⟨r, rfl⟩, h⟩, And.right⟩

/-! ### Built-in rules -/

theorem exists_option_of_mem_builtinRules
    {x : RuleId × (Option RuleSettings → Except RuleError Rule)} (h : x ∈ builtinRules) :
    ∃ o : ListOption, x = (o.rule, o.make) := by
  obtain ⟨o, -, rfl⟩ := List.mem_map.mp (ListOption.builtinRules_eq ▸ h)
  exact ⟨o, rfl⟩

/-- The first built-in rule with an option of another is reported. -/
theorem addConfigured_builtinRules_eq_error_iff :
    addConfigured c builtinRules g = .error e ↔
      ∃ before id after o, builtinIds = before ++ id :: after ∧
        (∀ id' ∈ before, ∀ o', ¬c.Misplaces id' o') ∧ c.Misplaces id o ∧
          e = .invalidOption id.text o.name := by
  rw [addConfigured_eq_error_iff]
  constructor
  · rintro ⟨before, x, after, hsplit, hbefore, hx⟩
    obtain ⟨o, rfl⟩ := exists_option_of_mem_builtinRules (x := x) (by simp [hsplit])
    obtain ⟨o', ho', rfl⟩ := make_eq_error_iff.mp hx
    refine ⟨before.map Prod.fst, o.rule, after.map Prod.fst, o', ?_, ?_, ho', rfl⟩
    · rw [builtinIds, hsplit, List.map_append, List.map_cons]
    · intro id hid
      obtain ⟨y, hy, rfl⟩ := List.mem_map.mp hid
      obtain ⟨p, rfl⟩ := exists_option_of_mem_builtinRules (x := y) (by simp [hsplit, hy])
      exact exists_make_eq_ok_iff.mp (hbefore _ hy)
  · rintro ⟨before, id, after, o, hsplit, hbefore, ho, rfl⟩
    obtain ⟨l, m, hrules, rfl, hm⟩ := List.map_eq_append_iff.mp hsplit
    obtain ⟨x, m, rfl, rfl, rfl⟩ := List.map_eq_cons_iff.mp hm
    refine ⟨l, x, m, hrules, ?_, ?_⟩
    · intro y hy
      obtain ⟨p, rfl⟩ := exists_option_of_mem_builtinRules (x := y) (by simp [hrules, hy])
      exact exists_make_eq_ok_iff.mpr (hbefore _ (List.mem_map_of_mem hy))
    · obtain ⟨p, rfl⟩ := exists_option_of_mem_builtinRules (x := x) (by simp [hrules])
      exact make_eq_error_iff.mpr ⟨o, ho, rfl⟩

theorem ofConfig_of_unknown {k : String} (h : unknownId? c = some k) :
    ofConfig c = .error (.notFound k) := by
  rw [ofConfig, h]

theorem ofConfig_of_known (h : unknownId? c = none) :
    ofConfig c = addConfigured c builtinRules ∅ := by
  rw [ofConfig, h]

/-- An unknown id is reported before anything else, and of several the least one. -/
theorem ofConfig_eq_notFound_iff {k : String} :
    ofConfig c = .error (.notFound k) ↔
      c.IsUnknown k ∧ ∀ k', c.IsUnknown k' → Text.Utf8.encode k ≤ Text.Utf8.encode k' := by
  simp only [Text.Utf8.encode_le_encode_iff]
  rw [← unknownId?_eq_some_iff]
  cases hunknown : unknownId? c with
  | some k' => simp [ofConfig_of_unknown hunknown]
  | none => simp [ofConfig_of_known hunknown, addConfigured_builtinRules_eq_error_iff]

/-- If all ids are known, the first rule with an option of another is reported. -/
theorem ofConfig_eq_invalidOption_iff {rule option : String} :
    ofConfig c = .error (.invalidOption rule option) ↔
      (∀ k, ¬c.IsUnknown k) ∧ ∃ before id after o, builtinIds = before ++ id :: after ∧
        (∀ id' ∈ before, ∀ o', ¬c.Misplaces id' o') ∧ c.Misplaces id o ∧
          rule = id.text ∧ option = o.name := by
  rw [← unknownId?_eq_none_iff]
  cases hunknown : unknownId? c with
  | some k => simp [ofConfig_of_unknown hunknown]
  | none => simp [ofConfig_of_known hunknown, addConfigured_builtinRules_eq_error_iff]

theorem exists_ofConfig_iff :
    (∃ g, ofConfig c = .ok g) ↔
      (∀ k, ¬c.IsUnknown k) ∧ ∀ id ∈ builtinIds, ∀ o, ¬c.Misplaces id o := by
  rw [← unknownId?_eq_none_iff]
  cases hunknown : unknownId? c with
  | some k => simp [ofConfig_of_unknown hunknown]
  | none =>
    have hmade : (∀ x ∈ builtinRules, ∃ r, x.2 (c.settingsOf x.1.text) = .ok r) ↔
        ∀ o : ListOption, ∃ r, o.make (c.settingsOf o.rule.text) = .ok r := by
      rw [ListOption.builtinRules_eq, List.forall_mem_map]
      exact ⟨fun h o => h o o.mem_all, fun h o _ => h o⟩
    have hids : (∀ id ∈ builtinIds, ∀ o, ¬c.Misplaces id o) ↔
        ∀ p : ListOption, ∀ o, ¬c.Misplaces p.rule o := by
      rw [ListOption.builtinIds_eq, List.forall_mem_map]
      exact ⟨fun h o => h o o.mem_all, fun h o _ => h o⟩
    rw [ofConfig_of_known hunknown, exists_addConfigured_iff, hmade, hids]
    simp only [exists_make_eq_ok_iff, true_and]

/-! ### The rules made -/

/-- The rules are those that are on, in order. -/
theorem rules_eq (h : ofConfig c = .ok g) :
    g.rules = (ListOption.all.filter fun o => c.isOn o.rule.text).map c.ruleOf := by
  have hmail : recipientsRule c = c.ruleOf .allowedEmailDomains := by
    rw [ruleOf, listOf, ListOption.check_allowedEmailDomains]
    rfl
  have hplay : collectionsRule c = c.ruleOf .mandatoryCollections := by
    rw [ruleOf, listOf, ListOption.check_mandatoryCollections]
    rfl
  have hon : ∀ o : ListOption, (if c.isOn o.rule.text then [c.ruleOf o] else []) =
      ([o].filter fun o => c.isOn o.rule.text).map c.ruleOf := by
    intro o
    rw [List.filter_singleton]
    cases c.isOn o.rule.text <;> rfl
  rw [rules_of_ofConfig h, hmail, hplay]
  exact (congrArg₂ (· ++ ·) (hon .allowedEmailDomains) (hon .mandatoryCollections)).trans
    (by rw [← List.map_append, ← List.filter_append]; rfl)

theorem mem_rules_iff (h : ofConfig c = .ok g) {r : Rule} :
    r ∈ g.rules ↔ ∃ o : ListOption, c.isOn o.rule.text = true ∧ c.ruleOf o = r := by
  simp [rules_eq h, ListOption.mem_all]

theorem ids_eq (h : ofConfig c = .ok g) : g.ids = builtinIds.filter fun id => c.isOn id.text := by
  rw [ids, rules_eq h, List.map_map, ListOption.builtinIds_eq, List.filter_map]
  exact List.map_congr_left fun o _ => c.id_ruleOf o

/-- A rule that is on is found under its id. -/
theorem get?_of_isOn (h : ofConfig c = .ok g) (hon : c.isOn o.rule.text = true) :
    g.get? o.rule = some (c.ruleOf o) := by
  cases hfound : g.get? o.rule with
  | none =>
    have hnone := List.find?_eq_none.mp hfound _ ((mem_rules_iff h).mpr ⟨o, hon, rfl⟩)
    simp [id_ruleOf] at hnone
  | some r =>
    obtain ⟨o', -, rfl⟩ := (mem_rules_iff h).mp (List.mem_of_find?_eq_some hfound)
    have hid := List.find?_some hfound
    rw [decide_eq_true_iff, ruleId_eq_id, id_ruleOf, ListOption.rule_inj] at hid
    rw [hid]

/-! ### Entries that say nothing -/

theorem addConfigured_congr (h : ∀ x ∈ l,
      x.2 (c.settingsOf x.1.text) = x.2 (d.settingsOf x.1.text) ∧
        c.isOn x.1.text = d.isOn x.1.text) :
    addConfigured c l g = addConfigured d l g := by
  induction l generalizing g with
  | nil => rfl
  | cons x l ih =>
    obtain ⟨⟨hmake, hon⟩, hl⟩ := List.forall_mem_cons.mp h
    cases hx : x.2 (c.settingsOf x.1.text) with
    | error e => rw [addConfigured_cons_of_error hx, addConfigured_cons_of_error (hmake ▸ hx)]
    | ok r =>
      rw [addConfigured_cons_of_ok hx, addConfigured_cons_of_ok (hmake ▸ hx), hon]
      exact ih hl

/-- The rules depend on a configuration only through the unknown ids in it, and through what it says
about each built-in rule. -/
theorem ofConfig_congr (hunknown : ∀ k, c.IsUnknown k ↔ d.IsUnknown k)
    (hrule : ∀ o : ListOption,
      o.make (c.settingsOf o.rule.text) = o.make (d.settingsOf o.rule.text) ∧
        c.isOn o.rule.text = d.isOn o.rule.text) :
    ofConfig c = ofConfig d := by
  have hfirst : unknownId? c = unknownId? d := by
    ext k
    simp only [unknownId?_eq_some_iff, hunknown]
  have hrules : addConfigured c builtinRules ∅ = addConfigured d builtinRules ∅ := by
    apply addConfigured_congr
    intro x hx
    obtain ⟨o, rfl⟩ := exists_option_of_mem_builtinRules hx
    exact hrule o
  rw [ofConfig, ofConfig, hfirst, hrules]

/-- An entry that switches a rule on and of whose settings the rule makes what it makes of none
might as well be absent. -/
theorem ofConfig_insert_eq_erase {id : RuleId} (hid : id ∈ builtinIds) {entry : RuleEntry}
    (hon : entry.isEnabled = true)
    (hmake : ∀ o : ListOption, o.make entry.settings? = o.make none) :
    ofConfig { c with rules := c.rules.insert id.text entry } =
      ofConfig { c with rules := c.rules.erase id.text } := by
  -- only what is said about the rule itself differs
  have hother : ∀ k, k ≠ id.text →
      (c.rules.insert id.text entry).get? k = (c.rules.erase id.text).get? k := by
    intro k hk
    rw [TextMap.get?_insert, TextMap.get?_erase, if_neg hk, if_neg hk]
  have hnone : (c.rules.erase id.text).get? id.text = none := by
    rw [TextMap.get?_erase, if_pos rfl]
  apply ofConfig_congr
  · intro k
    by_cases hk : k = id.text
    · -- the id is known, whether there is an entry or not
      subst hk
      constructor
      · rintro ⟨-, h⟩
        exact absurd rfl (h id hid)
      · rintro ⟨-, h⟩
        exact absurd rfl (h id hid)
    · rw [IsUnknown, IsUnknown, TextMap.mem_keys_iff, TextMap.mem_keys_iff, hother k hk]
  · intro o
    rw [settingsOf, settingsOf, isOn_eq, isOn_eq]
    by_cases ho : o.rule.text = id.text
    · rw [ho, TextMap.get?_insert_self, hnone]
      exact ⟨hmake o, by simp [hon]⟩
    · rw [hother _ ho]
      exact ⟨rfl, rfl⟩

/-- **What rules a configuration makes, and what it is refused for.**  The least unknown id is
reported first, then the first rule with an option of another, even if its list is empty.  If there
is none of either, the built-in rules that are not switched off are made, each from its own
settings.  An entry that switches a rule on or has no settings in it might as well be absent. -/
theorem ofConfig_exact (c : Config) :
    (∀ k, ofConfig c = .error (.notFound k) ↔
      c.IsUnknown k ∧ ∀ k', c.IsUnknown k' → Text.Utf8.encode k ≤ Text.Utf8.encode k') ∧
    (∀ rule option, ofConfig c = .error (.invalidOption rule option) ↔
      (∀ k, ¬c.IsUnknown k) ∧ ∃ before id after o, builtinIds = before ++ id :: after ∧
        (∀ id' ∈ before, ∀ o', ¬c.Misplaces id' o') ∧ c.Misplaces id o ∧
          rule = id.text ∧ option = o.name) ∧
    ((∃ g, ofConfig c = .ok g) ↔
      (∀ k, ¬c.IsUnknown k) ∧ ∀ id ∈ builtinIds, ∀ o, ¬c.Misplaces id o) ∧
    (∀ g, ofConfig c = .ok g →
      g.ids = builtinIds.filter (fun id => c.rules.get? id.text ≠ some (.enabled false)) ∧
        g.ids.Nodup ∧ ∀ r ∈ g.rules, r.severity = c.severityOf r.id.text ∧
          ∃ o : ListOption, o.rule = r.id ∧ r.options = [(o.name, c.listOf o)]) ∧
    ∀ id ∈ builtinIds,
      ofConfig { c with rules := c.rules.insert id.text (.enabled true) } =
          ofConfig { c with rules := c.rules.erase id.text } ∧
        ofConfig { c with rules := c.rules.insert id.text (.settings {}) } =
          ofConfig { c with rules := c.rules.erase id.text } := by
  refine ⟨fun _ => ofConfig_eq_notFound_iff, fun _ _ => ofConfig_eq_invalidOption_iff,
    exists_ofConfig_iff, ?_, ?_⟩
  · intro g hg
    have hids : g.ids = builtinIds.filter fun id => c.isOn id.text := ids_eq hg
    refine ⟨hids, hids ▸ List.Nodup.filter _ (by decide), fun r hr => ?_⟩
    obtain ⟨o, -, rfl⟩ := (mem_rules_iff hg).mp hr
    rw [id_ruleOf]
    exact ⟨rfl, o, rfl, c.options_ruleOf o⟩
  · intro id hid
    -- empty settings have neither option, nor a severity
    have hempty : ∀ o : ListOption, o.make (some {}) = o.make none := by
      intro o
      cases o <;> rfl
    exact ⟨ofConfig_insert_eq_erase hid rfl fun o => rfl, ofConfig_insert_eq_erase hid rfl hempty⟩

/-- An unknown id is reported, whatever else is wrong. -/
example :
    let misplaced := RuleEntry.settings { mandatoryCollections := some [] }
    let rules := TextMap.ofList [(recipientsId.text, misplaced), ("zebra", .enabled false),
      ("yak", .enabled true)]
    ofConfig { rules } = .error (.notFound "yak") := by
  decide +kernel

end Registry

/-! ### Lists of a sound configuration -/

namespace Config

variable {c : Config} {o : ListOption}

/-- A list that a sound configuration gives to an option, and that is not empty, is taken as it
is but for the form of its entries. -/
theorem listOf_of_sound (hsound : c.fault? = none) {written : List String}
    (hwritten : (c.settingsOf o.rule.text).bind o.written? = some written) (hne : written ≠ []) :
    c.listOf o = (written.map o.normal).eraseDups := by
  obtain ⟨s, hs, hl⟩ := Option.bind_eq_some_iff.mp hwritten
  obtain ⟨-, -, hentries⟩ := fault?_eq_none_iff.mp hsound
  have hmem : (o.rule.text, .settings s) ∈ c.rules.entries :=
    TextMap.mem_entries_of_get? (settingsOf_eq_some_iff.mp hs)
  rw [listOf, ListOption.listFrom, hwritten]
  exact ListOption.resolve_of_ne_empty hne (hentries _ s hmem o written hl)

theorem listOf_of_empty (h : (c.settingsOf o.rule.text).bind o.written? = none ∨
    (c.settingsOf o.rule.text).bind o.written? = some []) : c.listOf o = o.builtin := by
  rw [listOf, ListOption.listFrom]
  rcases h with h | h
  · rw [h]
  · rw [h]
    exact o.resolve_nil

theorem listOf_ne_nil (c : Config) (o : ListOption) : c.listOf o ≠ [] := by
  rw [listOf, ListOption.listFrom]
  split
  · exact (o.isResolved_resolve _).ne_nil
  · exact o.isResolved_builtin.ne_nil

end Config

open Config in
/-- **A list of the configuration replaces the built-in one.**  No built-in entry is left in it
unless the configuration lists that as well; a list without entries is as good as none.  What a rule
makes of any list has entries, is normal, and is left as it is if the rule makes something of it
again. -/
theorem Registry.options_of_parse {text : String} {c : Config} {g : Registry}
    (hc : Config.parse text = .ok c) (hg : Registry.ofConfig c = .ok g) :
    (∀ o : ListOption, c.isOn o.rule.text = true → ∃ r l, g.get? o.rule = some r ∧
      r.options = [(o.name, l)] ∧
        (∀ written, (c.settingsOf o.rule.text).bind o.written? = some written → written ≠ [] →
          l = (written.map o.normal).eraseDups ∧ l ≠ [] ∧
            ∀ s ∈ l, ∃ w ∈ written, o.normal w = s) ∧
        ((c.settingsOf o.rule.text).bind o.written? = none ∨
          (c.settingsOf o.rule.text).bind o.written? = some [] → l = o.builtin)) ∧
    ∀ (o : ListOption) (l : List String), o.resolve l ≠ [] ∧ (o.resolve l).Nodup ∧
      (∀ s ∈ o.resolve l, Text.isBlankText s = false ∧ Text.trimmed s = s) ∧
        o.resolve (o.resolve l) = o.resolve l := by
  constructor
  · intro o hon
    obtain ⟨-, -, -, hsound⟩ := parse_eq_ok_iff.mp hc
    refine ⟨c.ruleOf o, c.listOf o, Registry.get?_of_isOn hg hon, c.options_ruleOf o, ?_,
      listOf_of_empty⟩
    intro written hwritten hne
    have hlist := listOf_of_sound hsound hwritten hne
    refine ⟨hlist, c.listOf_ne_nil o, fun s hs => ?_⟩
    rw [hlist, List.mem_eraseDups] at hs
    exact List.mem_map.mp hs
  · intro o l
    have hresolved := o.isResolved_resolve l
    refine ⟨hresolved.ne_nil, hresolved.nodup, fun s hs => ?_, o.resolve_resolve l⟩
    have htrimmed : Text.trimmed s = s := by
      rw [← hresolved.normal s hs, o.trimmed_normal]
    refine ⟨?_, htrimmed⟩
    rw [← Bool.not_eq_true, ← Text.trimmed_eq_empty_iff, htrimmed]
    exact hresolved.ne_empty s hs

/-- A configuration that lists a collection in two forms, and says nothing of domains. -/
def listedConfig : String :=
  "[rules.must_include_collections]\nmandatory_collections = [\" a.b\", \"a.b \"]\n"

theorem Registry.options_of_parse_listedConfig :
    ∃ c g, Config.parse listedConfig = .ok c ∧ Registry.ofConfig c = .ok g ∧
      (∃ r, g.get? collectionsId = some r ∧ r.options = [("mandatory_collections", ["a.b"])]) ∧
      ∃ r, g.get? recipientsId = some r ∧
        r.options = [("allowed_email_domains", AllowedDomains.builtin.domains)] := by
  have hread : (Config.parse listedConfig).toOption.any (fun c =>
      (Registry.ofConfig c).toOption.isSome ∧ c.rules.get? recipientsId.text = none ∧
        c.rules.get? collectionsId.text =
          some (.settings { mandatoryCollections := some [" a.b", "a.b "] })) = true := by
    decide +kernel
  cases hparse : Config.parse listedConfig with
  | error e =>
    rw [hparse] at hread
    cases hread
  | ok c =>
    rw [hparse, Except.toOption, Option.any_some, decide_eq_true_eq] at hread
    obtain ⟨hmade, hmail, hplay⟩ := hread
    cases hg : Registry.ofConfig c with
    | error e =>
      rw [hg] at hmade
      cases hmade
    | ok g =>
      obtain ⟨hlists, -⟩ := options_of_parse hparse hg
      refine ⟨c, g, rfl, hg, ?_, ?_⟩
      · have hon : c.isOn collectionsId.text = true := by
          simp [Config.isOn, hplay]
        have hwritten : (c.settingsOf collectionsId.text).bind
            ListOption.mandatoryCollections.written? = some [" a.b", "a.b "] := by
          rw [Config.settingsOf_eq_some_iff.mpr hplay]
          rfl
        obtain ⟨r, l, hr, hoptions, hlist, -⟩ := hlists .mandatoryCollections hon
        obtain ⟨hl, -⟩ := hlist _ hwritten (List.cons_ne_nil _ _)
        have hnormal : ([" a.b", "a.b "].map ListOption.mandatoryCollections.normal).eraseDups =
            ["a.b"] := by
          decide +kernel
        rw [hl, hnormal] at hoptions
        exact ⟨r, hr, hoptions⟩
      · have hon : c.isOn recipientsId.text = true := by
          simp [Config.isOn, hmail]
        have hwritten : (c.settingsOf recipientsId.text).bind
            ListOption.allowedEmailDomains.written? = none := by
          rw [Config.settingsOf, hmail]
          rfl
        obtain ⟨r, l, hr, hoptions, -, hempty⟩ := hlists .allowedEmailDomains hon
        rw [hempty (.inl hwritten)] at hoptions
        exact ⟨r, hr, hoptions⟩

end PlaybookPolicy
