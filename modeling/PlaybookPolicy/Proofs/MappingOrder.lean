import PlaybookPolicy.Proofs.StableSort
import PlaybookPolicy.Yaml.Value

/-!
# The order of the entries of a mapping

The keys of a mapping are distinct, so a key leads to the same value in whatever order the entries
stand.

## Main results

* `Yaml.Mapping.get?_eq_of_perm` — **the order of entries does not matter for looking up a key.**
* `Yaml.Mapping.get?_cons_of_ne`, `Yaml.Mapping.get?_cons_self` — an entry more.
* `findSome?_eq_of_perm_cons` — the one element that answers is found wherever it stands.
-/

namespace PlaybookPolicy

namespace Yaml

namespace Value

theorem isText_iff {key : String} {v : Value} : v.isText key = true ↔ v = .text key := by
  cases v with
  | text s => simp [isText]
  | _ => simp [isText]

theorem asText?_of_isText {key : String} {v : Value} (h : v.isText key = true) :
    v.asText? = some key := by
  rw [isText_iff] at h
  rw [h]
  rfl

theorem same_text {key : String} {v : Value} : same (.text key) v = v.isText key := by
  cases v with
  | text s =>
    rw [same, isText, Bool.eq_iff_iff, beq_iff_eq, beq_iff_eq]
    exact eq_comm
  | _ => rw [same, isText] <;> simp

end Value

namespace Mapping

variable {m n : Mapping} {key key' : String} {v : Value}

theorem get?_cons_self : get? ((.text key, v) :: m) key = some v := by
  have hkey : Value.isText key (.text key) = true := Value.isText_iff.mpr rfl
  simp only [get?, List.find?_cons, hkey, Option.map_some]

theorem get?_cons_of_ne (h : key' ≠ key) : get? ((.text key, v) :: m) key' = get? m key' := by
  unfold get?
  rw [List.find?_cons_of_neg]
  intro htext
  have heq := Value.isText_iff.mp htext
  cases heq
  exact h rfl

theorem get?_eq_none (h : ∀ e ∈ m, e.1.isText key = false) : get? m key = none := by
  unfold get?
  rw [Option.map_eq_none_iff, List.find?_eq_none]
  intro e he
  rw [h e he]
  exact Bool.false_ne_true

theorem get?_append_cons_self (h : ∀ e ∈ m, e.1.isText key = false) :
    get? (m ++ (.text key, v) :: n) key = some v := by
  have hnone : m.find? (fun e => e.1.isText key) = none := by
    rw [List.find?_eq_none]
    intro e he
    rw [h e he]
    exact Bool.false_ne_true
  have hself : get? ((.text key, v) :: n) key = some v := get?_cons_self
  unfold get? at hself ⊢
  rw [List.find?_append, hnone, Option.none_or, hself]

theorem distinctKeys_cons_text (h : ∀ e ∈ m, e.1.isText key = false)
    (hm : distinctKeys m = true) : distinctKeys ((.text key, v) :: m) = true := by
  have hnone : (m.any fun e => Value.same (.text key) e.1) = false := by
    rw [List.any_eq_false]
    intro e he
    rw [Value.same_text, h e he]
    exact Bool.false_ne_true
  rw [distinctKeys, hnone, hm]
  rfl

/-- No two entries have the same text as their key. -/
theorem pairwise_isText (key : String) (h : distinctKeys m = true) :
    m.Pairwise fun a b => a.1.isText key = true → b.1.isText key = false := by
  induction m with
  | nil => exact .nil
  | cons e m ih =>
    rw [distinctKeys, Bool.and_eq_true, Bool.not_eq_true', List.any_eq_false] at h
    refine List.pairwise_cons.mpr ⟨?_, ih h.2⟩
    intro b hb hkey
    have hsame := h.1 b hb
    rw [Value.isText_iff.mp hkey, Value.same_text] at hsame
    simpa using hsame

/-- **The order of entries does not matter for looking up a key.** -/
theorem get?_eq_of_perm (h : m.Perm n) (hn : distinctKeys n = true) (key : String) :
    get? m key = get? n key := by
  have hkept := filter_eq_of_perm h.symm (pairwise_isText key hn)
  unfold get?
  rw [← List.head?_filter, ← List.head?_filter, hkept]

end Mapping

end Yaml

/-- The one element that answers is found wherever it stands. -/
theorem findSome?_eq_of_perm_cons {α β : Type} {f : α → Option β} {l l' : List α} {a : α} {b : β}
    (h : l.Perm (a :: l')) (ha : f a = some b) (hl' : ∀ x ∈ l', f x = none) :
    l.findSome? f = some b := by
  have hanswers : (l.filterMap f).Perm [b] := by
    refine (h.filterMap f).trans (.of_eq ?_)
    rw [List.filterMap_cons_some ha, List.filterMap_eq_nil_iff.mpr hl']
  rw [← List.head?_filterMap, List.perm_singleton.mp hanswers]
  rfl

end PlaybookPolicy
