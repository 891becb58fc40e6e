import Mathlib.Data.Finset.Card
import PlaybookPolicy.Proofs.ResolvedRules

/-!
# Registries as maps in the order of first registration

A registry is a list of rules, and nothing in the list keeps two rules from having one id.  What
keeps them apart is how rules get in: registering a rule either puts it in the place of the first
one with its id, or appends it if there is none.  So the ids stay distinct, and each keeps the place
in which it came in, however many rules are registered, and of whatever kind they are; and the rule
that is found under an id is the one that was registered last.

## Main definitions

* `Registry.registerAll` — a registry after the rules of a list.
* `Registry.map` — a registry with its rules taken as rules of another kind.
* `Registry.IsInitial` — the registries that the program makes: the empty one, the one with all
  built-in rules, and the one of a configuration.

## Main results

* `Registry.register_cases` — what registering a rule does.
* `Registry.ids_register`, `Registry.get?_register` — the ids of a registry, and what is found in it,
  after one rule more.
* `Registry.ids_registerAll`, `Registry.get?_registerAll` — the same after any number of rules.
* `Registry.registerAll_exact` — **a registry is a map in the order of first registration.**
-/

namespace PlaybookPolicy

open Identified (ruleId)

/-! ### First occurrences -/

section Occurrences

variable {α : Type} [DecidableEq α]

theorem eraseDups_concat (l : List α) (a : α) :
    (l ++ [a]).eraseDups = if a ∈ l then l.eraseDups else l.eraseDups ++ [a] := by
  rw [List.eraseDups_append]
  by_cases ha : a ∈ l <;> simp [List.removeAll, List.eraseDups_cons, ha]

theorem eraseDups_of_nodup {l : List α} (h : l.Nodup) : l.eraseDups = l := by
  induction l using List.reverseRecOn with
  | nil => rfl
  | append_singleton l a ih =>
    obtain ⟨ha, hl⟩ := List.nodup_concat l a |>.mp (by rwa [List.concat_eq_append])
    rw [eraseDups_concat, if_neg ha, ih hl]

end Occurrences

namespace Registry

variable {ρ σ : Type} [Identified ρ] [Identified σ]

/-! ### One rule more -/

/-- **What registering a rule does**: the first rule with its id makes room for it, and if there is
none, then it comes last. -/
theorem register_cases (g : Registry ρ) (r : ρ) :
    (∃ before q after, g.rules = before ++ q :: after ∧ (∀ p ∈ before, ruleId p ≠ ruleId r) ∧
      ruleId q = ruleId r ∧ (g.register r).rules = before ++ r :: after) ∨
    (∀ p ∈ g.rules, ruleId p ≠ ruleId r) ∧ (g.register r).rules = g.rules ++ [r] := by
  obtain ⟨l⟩ := g
  show (∃ before q after, l = before ++ q :: after ∧ (∀ p ∈ before, ruleId p ≠ ruleId r) ∧
      ruleId q = ruleId r ∧ registerIn r l = before ++ r :: after) ∨
    (∀ p ∈ l, ruleId p ≠ ruleId r) ∧ registerIn r l = l ++ [r]
  induction l with
  | nil => exact .inr ⟨by simp, rfl⟩
  | cons q l ih =>
    rw [registerIn]
    by_cases hq : ruleId q = ruleId r
    · rw [if_pos hq]
      exact .inl ⟨[], q, l, rfl, by simp, hq, rfl⟩
    · rw [if_neg hq]
      rcases ih with ⟨before, p, after, rfl, hbefore, hp, hregister⟩ | ⟨hnone, hregister⟩
      · refine .inl ⟨q :: before, p, after, rfl, ?_, hp, by rw [hregister, List.cons_append]⟩
        exact List.forall_mem_cons.mpr ⟨hq, hbefore⟩
      · exact .inr ⟨List.forall_mem_cons.mpr ⟨hq, hnone⟩, by rw [hregister, List.cons_append]⟩

theorem mem_ids_iff {g : Registry ρ} {id : RuleId} : id ∈ g.ids ↔ ∃ r ∈ g.rules, ruleId r = id :=
  List.mem_map

/-- An id that is there keeps its place, and a new one comes last. -/
theorem ids_register (g : Registry ρ) (r : ρ) :
    (g.register r).ids = if ruleId r ∈ g.ids then g.ids else g.ids ++ [ruleId r] := by
  rcases g.register_cases r with ⟨before, q, after, hg, -, hq, hregister⟩ | ⟨hnone, hregister⟩
  · have hmem : ruleId r ∈ g.ids := mem_ids_iff.mpr ⟨q, by simp [hg], hq⟩
    rw [if_pos hmem, ids, ids, hregister, hg]
    simp [hq]
  · have hmem : ruleId r ∉ g.ids := by simpa [mem_ids_iff] using hnone
    rw [if_neg hmem, ids, ids, hregister]
    simp

theorem nodup_ids_register {g : Registry ρ} (h : g.ids.Nodup) (r : ρ) :
    (g.register r).ids.Nodup := by
  rw [ids_register]
  split
  · exact h
  · next hnew => simpa [← List.concat_eq_append] using h.concat hnew

/-- The rule is found under its id, and under other ids what was found before. -/
theorem get?_register (g : Registry ρ) (r : ρ) (id : RuleId) :
    (g.register r).get? id = if ruleId r = id then some r else g.get? id := by
  rw [get?, get?]
  rcases g.register_cases r with ⟨before, q, after, hg, hbefore, hq, hregister⟩ | ⟨hnone, hregister⟩
  · rw [hregister, hg, List.find?_append, List.find?_append, List.find?_cons, List.find?_cons, hq]
    by_cases hid : ruleId r = id
    · subst hid
      have hfirst : before.find? (fun p => ruleId p = ruleId r) = none := by
        simpa [List.find?_eq_none] using hbefore
      simp [hfirst]
    · simp [hid]
  · rw [hregister, List.find?_append]
    by_cases hid : ruleId r = id
    · subst hid
      have hfirst : g.rules.find? (fun p => ruleId p = ruleId r) = none := by
        simpa [List.find?_eq_none] using hnone
      simp [hfirst]
    · simp [hid]

/-! ### Any number of rules more -/

/-- The registry after the rules of the list have been registered, one after the other. -/
def registerAll (g : Registry ρ) (rs : List ρ) : Registry ρ :=
  rs.foldl register g

theorem registerAll_concat (g : Registry ρ) (rs : List ρ) (r : ρ) :
    g.registerAll (rs ++ [r]) = (g.registerAll rs).register r := by
  rw [registerAll, List.foldl_append]
  rfl

variable {g : Registry ρ}

theorem nodup_ids_registerAll (h : g.ids.Nodup) (rs : List ρ) : (g.registerAll rs).ids.Nodup := by
  induction rs using List.reverseRecOn with
  | nil => exact h
  | append_singleton rs r ih =>
    rw [registerAll_concat]
    exact nodup_ids_register ih r

/-- **The ids stand in the order in which they came in.** -/
theorem ids_registerAll (h : g.ids.Nodup) (rs : List ρ) :
    (g.registerAll rs).ids = (g.ids ++ rs.map ruleId).eraseDups := by
  induction rs using List.reverseRecOn with
  | nil =>
    rw [List.map_nil, List.append_nil, eraseDups_of_nodup h]
    rfl
  | append_singleton rs r ih =>
    rw [registerAll_concat, ids_register, ih, List.map_append, ← List.append_assoc,
      List.map_singleton, eraseDups_concat]
    simp only [List.mem_eraseDups]

/-- **The rule under an id is the last one registered with it**, or else the one that was there
before. -/
theorem get?_registerAll (rs : List ρ) (id : RuleId) :
    (g.registerAll rs).get? id = (rs.reverse.find? fun r => ruleId r = id).or (g.get? id) := by
  induction rs using List.reverseRecOn with
  | nil => rfl
  | append_singleton rs r ih =>
    rw [registerAll_concat, get?_register, ih, List.reverse_append, List.reverse_singleton,
      List.singleton_append, List.find?_cons]
    by_cases hid : ruleId r = id <;> simp [hid]

theorem get?_eq_none_iff {id : RuleId} : g.get? id = none ↔ id ∉ g.ids := by
  simp [get?, mem_ids_iff]

theorem size_eq_card (h : g.ids.Nodup) : g.size = g.ids.toFinset.card := by
  rw [List.toFinset_card_of_nodup h, ids, List.length_map, size]

/-! ### How registries begin -/

/-- The registry with its rules taken as rules of another kind. -/
def map (f : ρ → σ) (g : Registry ρ) : Registry σ :=
  ⟨g.rules.map f⟩

/-- The registry is one that the program makes. -/
inductive IsInitial : Registry → Prop
  /-- There are no rules yet. -/
  | empty : IsInitial ∅
  /-- There are all built-in rules. -/
  | builtin : IsInitial builtin
  /-- There are the rules that a configuration leaves on. -/
  | configured {c : Config} {g : Registry} (h : ofConfig c = .ok g) : IsInitial g

variable {f : ρ → σ}

theorem ids_map (hf : ∀ r, ruleId (f r) = ruleId r) (g : Registry ρ) : (g.map f).ids = g.ids := by
  simp [ids, map, Function.comp_def, hf]

theorem get?_map (hf : ∀ r, ruleId (f r) = ruleId r) (g : Registry ρ) (id : RuleId) :
    (g.map f).get? id = (g.get? id).map f := by
  have hsame : (fun r => decide (ruleId r = id)) ∘ f = fun r => decide (ruleId r = id) := by
    funext r
    simp [hf]
  rw [get?, get?, map, List.find?_map, hsame]

/-- Whatever rules there are to choose from, a configuration never leaves two with one id. -/
theorem nodup_ids_addConfigured {c : Config}
    {l : List (RuleId × (Option RuleSettings → Except RuleError Rule))} {g g' : Registry}
    (h : addConfigured c l g = .ok g') (hg : g.ids.Nodup) : g'.ids.Nodup := by
  induction l generalizing g with
  | nil =>
    cases h
    exact hg
  | cons x l ih =>
    obtain ⟨r, -, h⟩ := addConfigured_cons_eq_ok_iff.mp h
    refine ih h ?_
    split
    · exact nodup_ids_register hg r
    · exact hg

theorem IsInitial.nodup_ids {g : Registry} (h : g.IsInitial) : g.ids.Nodup := by
  cases h with
  | empty => exact List.nodup_nil
  | builtin => decide
  | configured h =>
    rw [ofConfig] at h
    split at h
    · cases h
    · exact nodup_ids_addConfigured h List.nodup_nil

/-! ### Registries as maps -/

/-- **A registry is a map in the order of first registration.**  Let rules of any kind, the built-in
ones among them, be registered in a registry that the program makes.  Then the ids are distinct, and
stand in the order in which they first came in; the rule found under an id is the last one
registered with it, or else the one that was there from the beginning, and none is found if there
was none; there are as many rules as ids; and one rule more either takes the place of the one with
its id, while all others stay where they are, or comes last. -/
theorem registerAll_exact {own : Rule → ρ} (hown : ∀ r, ruleId (own r) = r.id) {g : Registry}
    (hg : g.IsInitial) (rs : List ρ) :
    let g' := (g.map own).registerAll rs
    g'.ids.Nodup ∧ g'.ids = (g.ids ++ rs.map ruleId).eraseDups ∧
      (∀ id, g'.get? id = (rs.reverse.find? fun r => ruleId r = id).or ((g.get? id).map own)) ∧
      (∀ id, g'.get? id = none ↔ id ∉ g.ids ∧ ∀ r ∈ rs, ruleId r ≠ id) ∧
      g'.size = (g.ids ++ rs.map ruleId).toFinset.card ∧
      ∀ r, (∃ before q after, g'.rules = before ++ q :: after ∧ ruleId q = ruleId r ∧
          (g'.register r).rules = before ++ r :: after) ∨
        ruleId r ∉ g'.ids ∧ (g'.register r).rules = g'.rules ++ [r] := by
  intro g'
  have hstart : (g.map own).ids = g.ids := ids_map hown g
  have hnodup : (g.map own).ids.Nodup := hstart ▸ hg.nodup_ids
  have hdistinct : g'.ids.Nodup := nodup_ids_registerAll hnodup rs
  have hids : g'.ids = (g.ids ++ rs.map ruleId).eraseDups := hstart ▸ ids_registerAll hnodup rs
  refine ⟨hdistinct, hids, fun id => ?_, fun id => ?_, ?_, fun r => ?_⟩
  · rw [get?_registerAll, get?_map hown]
  · rw [get?_eq_none_iff, hids]
    simp
  · rw [size_eq_card hdistinct, hids]
    congr 1
    ext id
    simp
  · rcases g'.register_cases r with ⟨before, q, after, hrules, -, hq, hregister⟩ | ⟨hnone, hregister⟩
    · exact .inl ⟨before, q, after, hrules, hq, hregister⟩
    · exact .inr ⟨by simpa [mem_ids_iff] using hnone, hregister⟩

/-- A rule may be nothing but its id. -/
instance : Identified RuleId :=
  ⟨id⟩

instance : Identified (ρ ⊕ σ) :=
  ⟨Sum.elim ruleId ruleId⟩

/-- The id of a rule that is not built in. -/
def noTabsId : RuleId :=
  ⟨"no-tabs", by decide⟩

/-- A recipients rule for one domain. -/
def strictRule : Rule where
  check := .recipients ⟨["only.example"]⟩

/-- A rule that is not built in, registered twice, and a rule in the place of a built-in one. -/
def moreRules : List (Rule ⊕ RuleId) :=
  [.inr noTabsId, .inl strictRule, .inr noTabsId]

theorem registerAll_exact_moreRules :
    (∀ r : Rule, ruleId (Sum.inl r : Rule ⊕ RuleId) = r.id) ∧ builtin.IsInitial ∧
      ((builtin.map Sum.inl).registerAll moreRules).ids =
        [recipientsId, collectionsId, noTabsId] ∧
      ((builtin.map Sum.inl).registerAll moreRules).get? recipientsId =
        some (.inl strictRule) := by
  have hown : ∀ r : Rule, ruleId (Sum.inl r : Rule ⊕ RuleId) = r.id := fun _ => rfl
  obtain ⟨-, hids, hget, -⟩ := registerAll_exact hown .builtin moreRules
  exact ⟨hown, .builtin, hids.trans (by decide), (hget recipientsId).trans (by decide)⟩

end Registry

end PlaybookPolicy
