/-!
# Maps keyed by text

A finite map from texts, kept as a list of entries in ascending order of their keys. The order
makes the list unique, so two maps are equal when they agree at every key.

## Main definitions

* `TextMap` — entries with strictly ascending keys.
* `TextMap.get?`, `TextMap.insert`, `TextMap.erase` — reading, writing and removing an entry.
* `TextMap.insertAll`, `TextMap.ofList` — writing entries one after the other; the last one wins.

## Main statements

* `TextMap.get?_insert` — what a map holds after writing an entry.
* `TextMap.ext_get?` — maps that agree at every key are equal.
-/

namespace PlaybookPolicy

/-- A finite map from texts. -/
@[ext] structure TextMap (β : Type) where
  /-- The entries, in ascending order of their keys. -/
  entries : List (String × β)
  /-- The keys are strictly ascending. -/
  sorted : entries.Pairwise fun a b => a.1 < b.1

namespace TextMap

variable {β : Type}

instance : EmptyCollection (TextMap β) :=
  ⟨⟨[], .nil⟩⟩

/-- The value under a key. -/
def get? (m : TextMap β) (k : String) : Option β :=
  m.entries.lookup k

/-- The keys, in ascending order. -/
def keys (m : TextMap β) : List String :=
  m.entries.map Prod.fst

/-- Puts an entry in its place of an ascending list, in the place of one with the same key. -/
def insertEntry (k : String) (v : β) : List (String × β) → List (String × β)
  | [] => [(k, v)]
  | e :: l =>
    if k < e.1 then (k, v) :: e :: l
    else if k = e.1 then (k, v) :: l
    else e :: insertEntry k v l

theorem mem_insertEntry {k : String} {v : β} {e : String × β} {l : List (String × β)}
    (h : e ∈ insertEntry k v l) : e = (k, v) ∨ e ∈ l := by
  induction l with
  | nil => simpa [insertEntry] using h
  | cons a l ih =>
    simp only [insertEntry] at h
    split at h
    · simpa using h
    · split at h
      · rcases List.mem_cons.1 h with h | h
        · exact .inl h
        · exact .inr (List.mem_cons_of_mem _ h)
      · rcases List.mem_cons.1 h with h | h
        · exact .inr (h ▸ List.mem_cons_self)
        · rcases ih h with h | h
          · exact .inl h
          · exact .inr (List.mem_cons_of_mem _ h)

theorem sorted_insertEntry {k : String} {v : β} {l : List (String × β)}
    (h : l.Pairwise fun a b => a.1 < b.1) :
    (insertEntry k v l).Pairwise fun a b => a.1 < b.1 := by
  induction l with
  | nil => simp [insertEntry]
  | cons a l ih =>
    have ⟨ha, hl⟩ := List.pairwise_cons.1 h
    simp only [insertEntry]
    split
    next hk =>
      refine List.pairwise_cons.2 ⟨fun e he => ?_, h⟩
      rcases List.mem_cons.1 he with rfl | he
      · exact hk
      · exact String.lt_trans hk (ha e he)
    next hk =>
      split
      next heq => exact List.pairwise_cons.2 ⟨fun e he => heq ▸ ha e he, hl⟩
      next hne =>
        refine List.pairwise_cons.2 ⟨fun e he => ?_, ih hl⟩
        rcases mem_insertEntry he with rfl | he
        · exact Std.lt_of_le_of_ne (String.not_lt.1 hk) (Ne.symm hne)
        · exact ha e he

/-- Writes an entry. -/
def insert (m : TextMap β) (k : String) (v : β) : TextMap β :=
  ⟨insertEntry k v m.entries, sorted_insertEntry m.sorted⟩

/-- Removes an entry. -/
def erase (m : TextMap β) (k : String) : TextMap β :=
  ⟨m.entries.filter fun e => e.1 != k, m.sorted.filter _⟩

/-- Writes entries one after the other, so that of two with the same key the later one stays. -/
def insertAll (m : TextMap β) (l : List (String × β)) : TextMap β :=
  l.foldl (fun m e => m.insert e.1 e.2) m

/-- The map of the given entries; of two with the same key the later one counts. -/
def ofList (l : List (String × β)) : TextMap β :=
  insertAll ∅ l

/-! ### Reading after writing -/

@[simp] theorem get?_empty (k : String) : (∅ : TextMap β).get? k = none := rfl

theorem lookup_cons (k k' : String) (v : β) (l : List (String × β)) :
    ((k, v) :: l).lookup k' = if k' = k then some v else l.lookup k' := by
  by_cases h : k' = k
  · simp [h]
  · have hb : (k' == k) = false := by simp [h]
    rw [List.lookup_cons, hb, if_neg h]

theorem lookup_insertEntry (k k' : String) (v : β) (l : List (String × β)) :
    (insertEntry k v l).lookup k' = if k' = k then some v else l.lookup k' := by
  induction l with
  | nil => simp [insertEntry, lookup_cons]
  | cons a l ih =>
    obtain ⟨ka, va⟩ := a
    simp only [insertEntry]
    split
    · simp only [lookup_cons]
    · split
      next heq =>
        subst heq
        simp only [lookup_cons]
        split <;> simp
      next hne =>
        simp only [lookup_cons, ih]
        by_cases hk : k' = ka
        · subst hk
          simp [Ne.symm hne]
        · simp [hk]

theorem get?_insert (m : TextMap β) (k k' : String) (v : β) :
    (m.insert k v).get? k' = if k' = k then some v else m.get? k' :=
  lookup_insertEntry k k' v m.entries

@[simp] theorem get?_insert_self (m : TextMap β) (k : String) (v : β) :
    (m.insert k v).get? k = some v := by
  simp [get?_insert]

theorem get?_insert_of_ne (m : TextMap β) {k k' : String} (v : β) (h : k' ≠ k) :
    (m.insert k v).get? k' = m.get? k' := by
  simp [get?_insert, h]

/-! ### Equality -/

theorem lookup_eq_none_of_lt {k : String} {l : List (String × β)} (h : ∀ e ∈ l, k < e.1) :
    l.lookup k = none := by
  induction l with
  | nil => rfl
  | cons a l ih =>
    obtain ⟨ka, va⟩ := a
    have hne : k ≠ ka := fun he => String.lt_irrefl k (he ▸ h (ka, va) List.mem_cons_self)
    rw [lookup_cons, if_neg hne]
    exact ih fun e he => h e (List.mem_cons_of_mem _ he)

theorem eq_of_lookup_eq {l m : List (String × β)} (hl : l.Pairwise fun a b => a.1 < b.1)
    (hm : m.Pairwise fun a b => a.1 < b.1) (h : ∀ k, l.lookup k = m.lookup k) : l = m := by
  induction l generalizing m with
  | nil =>
    cases m with
    | nil => rfl
    | cons b m =>
      obtain ⟨kb, vb⟩ := b
      simpa [lookup_cons] using h kb
  | cons a l ih =>
    obtain ⟨ka, va⟩ := a
    cases m with
    | nil => simpa [lookup_cons] using h ka
    | cons b m =>
      obtain ⟨kb, vb⟩ := b
      obtain ⟨ha, hl'⟩ := List.pairwise_cons.1 hl
      obtain ⟨hb, hm'⟩ := List.pairwise_cons.1 hm
      -- Neither first key is below the other, since the other list would not have it.
      have hkey : ka = kb := by
        rcases Decidable.em (ka < kb) with hlt | hge
        · have hnone := lookup_eq_none_of_lt (l := (kb, vb) :: m) (k := ka) fun e he => by
            rcases List.mem_cons.1 he with rfl | he
            · exact hlt
            · exact String.lt_trans hlt (hb e he)
          have := h ka
          rw [hnone, lookup_cons, if_pos rfl] at this
          cases this
        rcases Decidable.em (kb < ka) with hlt | hle
        · have hnone := lookup_eq_none_of_lt (l := (ka, va) :: l) (k := kb) fun e he => by
            rcases List.mem_cons.1 he with rfl | he
            · exact hlt
            · exact String.lt_trans hlt (ha e he)
          have := h kb
          rw [hnone, lookup_cons, if_pos rfl] at this
          cases this
        exact String.le_antisymm (String.not_lt.1 hle) (String.not_lt.1 hge)
      subst hkey
      have hval : va = vb := by simpa [lookup_cons] using h ka
      subst hval
      congr 1
      refine ih hl' hm' fun k => ?_
      by_cases hk : k = ka
      · subst hk
        rw [lookup_eq_none_of_lt ha, lookup_eq_none_of_lt hb]
      · simpa [lookup_cons, hk] using h k

theorem ext_get? {m n : TextMap β} (h : ∀ k, m.get? k = n.get? k) : m = n :=
  TextMap.ext (eq_of_lookup_eq m.sorted n.sorted h)

end TextMap

end PlaybookPolicy
