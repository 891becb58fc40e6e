import Mathlib.Data.List.Basic

/-!
# Stable sorting of shuffled groups

A stable sort keeps elements that compare as equal in the order they came in.  So the sorted list
depends on the order of the input, but only on the order among equal elements: if the input comes in
groups, and no element of one group equals an element of another, then the groups may come in any
order.

## Main results

* `filter_mergeSort` — the sort is stable.
* `eq_of_pairwise_of_filter_eq` — a sorted list is determined by the order among equal elements.
* `filter_mergeSort_comm` — elements may be left out before or after the sort.
* `mergeSort_flatMap_eq_of_perm` — **groups without common elements may be shuffled.**
-/

namespace PlaybookPolicy

variable {α ι : Type} (cmp : α → α → Ordering) [Std.TransCmp cmp]

/-! ### Sorted lists -/

theorem isLE_total_of_transCmp (a b : α) : ((cmp a b).isLE || (cmp b a).isLE) = true := by
  have hswap : cmp b a = (cmp a b).swap := Std.OrientedCmp.eq_swap
  rw [hswap]
  cases cmp a b <;> rfl

theorem pairwise_mergeSort_isLE (l : List α) :
    (l.mergeSort fun a b => (cmp a b).isLE).Pairwise fun a b => (cmp a b).isLE = true :=
  List.pairwise_mergeSort (fun _ _ _ => Std.TransCmp.isLE_trans) (isLE_total_of_transCmp cmp) l

/-- **The sort is stable.**  Elements that compare as equal keep the order they came in. -/
theorem filter_mergeSort {q : α → Bool}
    (hq : ∀ a b, q a = true → q b = true → (cmp a b).isLE = true) (l : List α) :
    (l.mergeSort fun a b => (cmp a b).isLE).filter q = l.filter q := by
  have hsorted : (l.filter q).Pairwise fun a b => (cmp a b).isLE = true :=
    List.pairwise_of_forall_mem_list fun a ha b hb =>
      hq a b (List.mem_filter.mp ha).2 (List.mem_filter.mp hb).2
  have hkept : (l.filter q).Sublist (l.mergeSort fun a b => (cmp a b).isLE) :=
    List.sublist_mergeSort (fun _ _ _ => Std.TransCmp.isLE_trans) (isLE_total_of_transCmp cmp)
      hsorted List.filter_sublist
  -- what is kept of the input is all there is of its kind in the sorted list
  have hfiltered := hkept.filter q
  rw [List.filter_filter] at hfiltered
  simp only [Bool.and_self] at hfiltered
  have hlength := ((List.mergeSort_perm l fun a b => (cmp a b).isLE).filter q).length_eq
  exact (hfiltered.eq_of_length hlength.symm).symm

theorem filter_cons_self (x : α) (l : List α) :
    (x :: l).filter (fun y => cmp x y == .eq) = x :: l.filter fun y => cmp x y == .eq := by
  have hself : cmp x x = .eq := Std.ReflCmp.compare_self
  exact List.filter_cons_of_pos (by simp [hself])

/-- **A sorted list is determined by the order among equal elements.** -/
theorem eq_of_pairwise_of_filter_eq : ∀ {l₁ l₂ : List α},
    l₁.Pairwise (fun a b => (cmp a b).isLE = true) →
    l₂.Pairwise (fun a b => (cmp a b).isLE = true) →
    (∀ x, l₁.filter (fun y => cmp x y == .eq) = l₂.filter fun y => cmp x y == .eq) →
    l₁ = l₂ := by
  intro l₁
  induction l₁ with
  | nil =>
    intro l₂ _ _ h
    cases l₂ with
    | nil => rfl
    | cons b l₂ =>
      have hb := h b
      rw [filter_cons_self] at hb
      cases hb
  | cons a l₁ ih =>
    intro l₂ h₁ h₂ h
    have ha := h a
    rw [filter_cons_self] at ha
    cases l₂ with
    | nil => cases ha
    | cons b l₂ =>
      have hb := h b
      rw [filter_cons_self] at hb
      obtain ⟨ha₁, ha₂⟩ := List.pairwise_cons.mp h₁
      obtain ⟨hb₁, hb₂⟩ := List.pairwise_cons.mp h₂
      -- each head stands in the other list, hence they are equal and the first of their kind
      have hab : (cmp a b).isLE = true := by
        have hmem : b ∈ a :: l₁ := (List.mem_filter.mp (hb ▸ List.mem_cons_self)).1
        rcases List.mem_cons.mp hmem with rfl | hmem
        · exact Std.ReflCmp.isLE_rfl
        · exact ha₁ b hmem
      have hba : (cmp b a).isLE = true := by
        have hmem : a ∈ b :: l₂ := (List.mem_filter.mp (ha ▸ List.mem_cons_self)).1
        rcases List.mem_cons.mp hmem with rfl | hmem
        · exact Std.ReflCmp.isLE_rfl
        · exact hb₁ a hmem
      have heq : cmp a b = .eq := Std.OrientedCmp.isLE_antisymm hab hba
      rw [List.filter_cons_of_pos (by simp [heq]), List.cons.injEq] at ha
      obtain ⟨rfl, -⟩ := ha
      rw [ih ha₂ hb₂]
      intro x
      have hx := h x
      rw [List.filter_cons, List.filter_cons] at hx
      split at hx
      · exact (List.cons.inj hx).2
      · exact hx

/-- Two elements that equal a third one equal each other. -/
theorem compare_eq_of_kind {x a b : α} (ha : (cmp x a == .eq) = true)
    (hb : (cmp x b == .eq) = true) : cmp a b = .eq := by
  rw [beq_iff_eq] at ha hb
  exact Std.TransCmp.eq_trans (Std.OrientedCmp.eq_symm ha) hb

/-- The sort leaves the elements that equal a given one as they came in. -/
theorem filter_kind_mergeSort (x : α) (l : List α) :
    (l.mergeSort fun a b => (cmp a b).isLE).filter (fun y => cmp x y == .eq)
      = l.filter fun y => cmp x y == .eq := by
  refine filter_mergeSort cmp ?_ l
  intro a b ha hb
  rw [compare_eq_of_kind cmp ha hb]
  rfl

/-- Elements may be left out before or after the sort. -/
theorem filter_mergeSort_comm (q : α → Bool) (l : List α) :
    (l.mergeSort fun a b => (cmp a b).isLE).filter q
      = (l.filter q).mergeSort fun a b => (cmp a b).isLE := by
  refine eq_of_pairwise_of_filter_eq cmp ((pairwise_mergeSort_isLE cmp l).filter q)
    (pairwise_mergeSort_isLE cmp _) ?_
  intro x
  calc ((l.mergeSort fun a b => (cmp a b).isLE).filter q).filter (fun y => cmp x y == .eq)
      = ((l.mergeSort fun a b => (cmp a b).isLE).filter fun y => cmp x y == .eq).filter q :=
        List.filter_comm _ _ _
    _ = (l.filter fun y => cmp x y == .eq).filter q := by rw [filter_kind_mergeSort]
    _ = (l.filter q).filter (fun y => cmp x y == .eq) := List.filter_comm _ _ _
    _ = ((l.filter q).mergeSort fun a b => (cmp a b).isLE).filter fun y => cmp x y == .eq := by
        rw [filter_kind_mergeSort]

/-! ### Groups -/

/-- If no two elements of a list satisfy a condition, then those that do are found in the same way
in any order of the list. -/
theorem filter_eq_of_perm {q : ι → Bool} {l₁ l₂ : List ι} (h : l₁.Perm l₂)
    (hq : l₁.Pairwise fun i j => q i = true → q j = false) : l₁.filter q = l₂.filter q := by
  have hperm := h.filter q
  have hpairs := hq.filter q
  cases hl : l₁.filter q with
  | nil =>
    rw [hl] at hperm
    exact (List.nil_perm.mp hperm).symm
  | cons i l =>
    rw [hl] at hperm hpairs
    cases l with
    | nil => exact List.singleton_perm.mp hperm
    | cons j l =>
      have hmem : ∀ k ∈ i :: j :: l, q k = true := by
        intro k hk
        rw [← hl] at hk
        exact (List.mem_filter.mp hk).2
      have hj := (List.pairwise_cons.mp hpairs).1 j List.mem_cons_self (hmem i List.mem_cons_self)
      rw [hmem j (by simp)] at hj
      cases hj

/-- Only the groups with such an element count for the elements that satisfy a condition. -/
theorem filter_flatMap_eq {F : ι → List α} (q : α → Bool) (l : List ι) :
    (l.flatMap F).filter q = (l.filter fun i => (F i).any q).flatMap fun i => (F i).filter q := by
  induction l with
  | nil => rfl
  | cons i l ih =>
    rw [List.flatMap_cons, List.filter_append, ih, List.filter_cons]
    split
    · rw [List.flatMap_cons]
    · next hi =>
      have hnone : (F i).filter q = [] := by
        rw [List.filter_eq_nil_iff]
        intro x hx hqx
        exact hi (List.any_eq_true.mpr ⟨x, hx, hqx⟩)
      rw [hnone, List.nil_append]

/-- **Groups without common elements may be shuffled.**  The sorted list of all their elements is
the same for every order of the groups. -/
theorem mergeSort_flatMap_eq_of_perm {F : ι → List α} {l₁ l₂ : List ι} (h : l₁.Perm l₂)
    (hapart : l₁.Pairwise fun i j => ∀ x ∈ F i, ∀ y ∈ F j, cmp x y ≠ .eq) :
    (l₁.flatMap F).mergeSort (fun a b => (cmp a b).isLE)
      = (l₂.flatMap F).mergeSort fun a b => (cmp a b).isLE := by
  refine eq_of_pairwise_of_filter_eq cmp (pairwise_mergeSort_isLE cmp _)
    (pairwise_mergeSort_isLE cmp _) ?_
  intro x
  rw [filter_kind_mergeSort, filter_kind_mergeSort, filter_flatMap_eq, filter_flatMap_eq]
  congr 1
  refine filter_eq_of_perm h (hapart.imp ?_)
  intro i j hij hi
  rw [List.any_eq_false]
  obtain ⟨a, ha, hxa⟩ := List.any_eq_true.mp hi
  intro b hb hxb
  exact hij a ha b hb (compare_eq_of_kind cmp hxa hxb)

end PlaybookPolicy
