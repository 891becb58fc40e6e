import PlaybookPolicy.Task.Basic

/-!
# Entries written over a map

What a map holds after many entries have been written over it: at each key the last of these
entries, or what the map held before if there is none.

## Main results

* `lookup_of_mem` — with distinct keys, every entry is found under its key.
* `TextMap.get?_insertAll` — the last entry of a key counts.
* `TextMap.get?_ofList_eq_some_iff_last` — the same where all entries are written at once.
* `TextMap.ofList_eq_of_perm` — with distinct keys, the order of the entries does not matter.
* `TextMap.get?_erase` — a removed entry is gone, and the others stay.
* `TextMap.mem_keys_iff` — the keys are those with a value.
* `Arguments.get?_union` — arguments written over others.
-/

namespace PlaybookPolicy

theorem lookup_of_mem {α β : Type} [BEq α] [LawfulBEq α] {a : α} {b : β} :
    ∀ {l : List (α × β)}, (l.map Prod.fst).Nodup → (a, b) ∈ l → l.lookup a = some b := by
  intro l
  induction l with
  | nil =>
    intro _ hmem
    cases hmem
  | cons e l ih =>
    intro hnodup hmem
    rw [List.map_cons, List.nodup_cons] at hnodup
    rcases List.mem_cons.mp hmem with rfl | hmem
    · exact List.lookup_cons_self
    · have hne : (a == e.1) = false := by
        rw [beq_eq_false_iff_ne]
        rintro rfl
        exact hnodup.1 (List.mem_map.mpr ⟨_, hmem, rfl⟩)
      rw [List.lookup_cons, hne]
      exact ih hnodup.2 hmem

theorem mem_of_lookup {α β : Type} [BEq α] [LawfulBEq α] {a : α} {b : β} {l : List (α × β)}
    (h : l.lookup a = some b) : (a, b) ∈ l := by
  obtain ⟨l₁, l₂, rfl, -⟩ := List.lookup_eq_some_iff.mp h
  exact List.mem_append_right l₁ List.mem_cons_self

namespace TextMap

variable {β : Type}

/-- The last entry of a key counts, and without one the map stays as it was. -/
theorem get?_insertAll (k : String) : ∀ (l : List (String × β)) (m : TextMap β),
    (m.insertAll l).get? k = (l.reverse.lookup k).or (m.get? k) := by
  intro l
  induction l with
  | nil =>
    intro m
    rfl
  | cons e l ih =>
    intro m
    obtain ⟨ke, v⟩ := e
    have hstep : m.insertAll ((ke, v) :: l) = (m.insert ke v).insertAll l := rfl
    rw [hstep, ih, get?_insert, List.reverse_cons, List.lookup_append, Option.or_assoc, lookup_cons]
    congr 1
    split
    · rw [Option.some_or]
    · rw [List.lookup_nil, Option.none_or]

theorem lookup_filter_ne (k k' : String) (l : List (String × β)) :
    (l.filter fun e => e.1 != k).lookup k' = if k' = k then none else l.lookup k' := by
  induction l with
  | nil => simp
  | cons e l ih =>
    obtain ⟨ke, v⟩ := e
    by_cases he : ke = k
    · rw [List.filter_cons_of_neg (by simp [he]), ih, lookup_cons, he]
      split
      · rfl
      · rfl
    · rw [List.filter_cons_of_pos (by simp [he]), lookup_cons, lookup_cons, ih]
      by_cases hk : k' = ke
      · rw [if_pos hk, if_pos hk, if_neg (hk ▸ he)]
      · rw [if_neg hk, if_neg hk]

theorem get?_erase (m : TextMap β) (k k' : String) :
    (m.erase k).get? k' = if k' = k then none else m.get? k' :=
  lookup_filter_ne k k' m.entries

theorem mem_entries_of_get? {m : TextMap β} {k : String} {v : β} (h : m.get? k = some v) :
    (k, v) ∈ m.entries :=
  mem_of_lookup h

theorem mem_keys_iff {m : TextMap β} {k : String} : k ∈ m.keys ↔ m.get? k ≠ none := by
  rw [get?, Ne, List.lookup_eq_none_iff, keys, List.mem_map]
  constructor
  · rintro ⟨e, he, rfl⟩ h
    simpa using h e he
  · intro h
    refine Decidable.byContradiction fun hnone => h fun e he => ?_
    exact bne_iff_ne.mpr fun hk => hnone ⟨e, he, hk.symm⟩

/-- With one entry for each key the last one is the first one. -/
theorem lookup_reverse_of_sorted (k : String) : ∀ {l : List (String × β)},
    l.Pairwise (fun a b => a.1 < b.1) → l.reverse.lookup k = l.lookup k := by
  intro l
  induction l with
  | nil =>
    intro _
    rfl
  | cons e l ih =>
    intro h
    obtain ⟨ke, v⟩ := e
    obtain ⟨hlt, hl⟩ := List.pairwise_cons.mp h
    rw [List.reverse_cons, List.lookup_append, ih hl, lookup_cons]
    by_cases hk : k = ke
    · have hnone : l.lookup k = none := lookup_eq_none_of_lt fun e he => hk ▸ hlt e he
      rw [if_pos hk, hnone, Option.none_or, lookup_cons, if_pos hk]
    · rw [if_neg hk, lookup_cons, if_neg hk, List.lookup_nil, Option.or_none]

theorem get?_insertAll_entries (m n : TextMap β) (k : String) :
    (m.insertAll n.entries).get? k = (n.get? k).or (m.get? k) := by
  rw [get?_insertAll, lookup_reverse_of_sorted k n.sorted]
  rfl

/-- The last entry of a key is the one behind which no other has the key. -/
theorem get?_ofList_eq_some_iff_last {l : List (String × β)} {k : String} {v : β} :
    (ofList l).get? k = some v ↔
      ∃ before after, l = before ++ (k, v) :: after ∧ ∀ e ∈ after, e.1 ≠ k := by
  rw [ofList, get?_insertAll, get?_empty, Option.or_none, List.lookup_eq_some_iff]
  constructor
  · rintro ⟨after, before, hl, hafter⟩
    rw [List.reverse_eq_append_iff, List.reverse_cons, List.append_assoc, List.singleton_append]
      at hl
    refine ⟨before.reverse, after.reverse, hl, fun e he => ?_⟩
    exact (bne_iff_ne.mp (hafter e (List.mem_reverse.mp he))).symm
  · rintro ⟨before, after, rfl, hafter⟩
    refine ⟨after.reverse, before.reverse, by simp, fun e he => ?_⟩
    exact bne_iff_ne.mpr (hafter e (List.mem_reverse.mp he)).symm

theorem get?_ofList_eq_none_iff {l : List (String × β)} {k : String} :
    (ofList l).get? k = none ↔ ∀ v, (k, v) ∉ l := by
  rw [ofList, get?_insertAll, get?_empty, Option.or_none, List.lookup_eq_none_iff]
  constructor
  · intro h v hv
    simpa using h (k, v) (List.mem_reverse.mpr hv)
  · rintro h ⟨k', v⟩ he
    rw [bne_iff_ne]
    rintro rfl
    exact h v (List.mem_reverse.mp he)

/-- With distinct keys no entry is written over. -/
theorem get?_ofList_eq_some_iff {l : List (String × β)} (hkeys : (l.map Prod.fst).Nodup)
    {k : String} {v : β} : (ofList l).get? k = some v ↔ (k, v) ∈ l := by
  rw [ofList, get?_insertAll, get?_empty, Option.or_none]
  constructor
  · intro h
    exact List.mem_reverse.mp (mem_of_lookup h)
  · intro h
    refine lookup_of_mem ?_ (List.mem_reverse.mpr h)
    rw [List.map_reverse]
    exact (List.reverse_perm _).symm.nodup hkeys

/-- **With distinct keys the order of the entries does not matter.** -/
theorem ofList_eq_of_perm {l l' : List (String × β)} (hkeys : (l.map Prod.fst).Nodup)
    (h : l.Perm l') : ofList l = ofList l' := by
  refine ext_get? fun k => Option.ext fun v => ?_
  rw [get?_ofList_eq_some_iff hkeys, get?_ofList_eq_some_iff ((h.map Prod.fst).nodup hkeys),
    h.mem_iff]

/-- An entry with another key is of no account. -/
theorem lookup_append_cons_of_ne {k k' : String} (h : k ≠ k') (v : β)
    (l₁ l₂ : List (String × β)) : (l₁ ++ (k', v) :: l₂).lookup k = (l₁ ++ l₂).lookup k := by
  rw [List.lookup_append, List.lookup_append, lookup_cons, if_neg h]

end TextMap

/-- Arguments written over others: at each key the former, or else the latter. -/
theorem Arguments.get?_union (args inline : Arguments) (k : String) :
    (args.union inline).get? k = (inline.get? k).or (args.get? k) :=
  TextMap.get?_insertAll_entries args inline k

end PlaybookPolicy
