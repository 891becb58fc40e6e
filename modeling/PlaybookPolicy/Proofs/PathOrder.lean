import PlaybookPolicy.Path

/-!
# The order of paths

Paths are compared part by part.  This is a linear order of the lists of parts: paths with the same
parts are the only ones that compare as equal.

## Main results

* `PathPart.compare_eq` — parts compare by rank, and then by their octets.
* `Path.comparePartLists_eq` — lists of parts compare as words.
* `Path.compareParts_eq_eq_iff` — **equal paths are those with the same parts.**
-/

namespace PlaybookPolicy

namespace PathPart

/-- The octets of a name, as numbers; none for other parts. -/
def octetsOf : PathPart → List Nat
  | name octets => octets.map UInt8.toNat
  | _ => []

/-- Parts compare by rank, and then by their octets. -/
theorem compare_eq : PathPart.compare = compareLex (compareOn rank) (compareOn octetsOf) := by
  funext a b
  cases a <;> cases b <;> rfl

instance : Std.TransCmp PathPart.compare := by
  rw [compare_eq]
  infer_instance

theorem ext_rank_octetsOf {a b : PathPart} (hrank : a.rank = b.rank)
    (hoctets : a.octetsOf = b.octetsOf) : a = b := by
  cases a with
  | name x =>
    cases b with
    | name y =>
      have hxy : x = y := (List.map_inj_right fun _ _ => UInt8.toNat.inj).mp hoctets
      rw [hxy]
    | _ => cases hrank
  | _ => cases b <;> first | rfl | cases hrank

instance : Std.LawfulEqCmp PathPart.compare where
  eq_of_compare {a b} h := by
    rw [compare_eq, compareLex_eq_eq, compareOn, compareOn] at h
    exact ext_rank_octetsOf (Std.LawfulEqOrd.eq_of_compare h.1) (Std.LawfulEqOrd.eq_of_compare h.2)

end PathPart

namespace Path

/-- Lists of parts compare as words. -/
theorem comparePartLists_eq (l₁ l₂ : List PathPart) :
    comparePartLists l₁ l₂ = List.compareLex PathPart.compare l₁ l₂ := by
  induction l₁ generalizing l₂ with
  | nil => cases l₂ <;> rfl
  | cons a l₁ ih =>
    cases l₂ with
    | nil => rfl
    | cons b l₂ => rw [comparePartLists, ih, List.compareLex_cons_cons]

theorem compareParts_eq (p q : Path) :
    p.compareParts q = List.compareLex PathPart.compare p.parts q.parts :=
  comparePartLists_eq _ _

instance : Std.TransCmp compareParts where
  eq_swap {p q} := by
    rw [compareParts_eq, compareParts_eq]
    exact Std.OrientedCmp.eq_swap
  isLE_trans {p q r} := by
    rw [compareParts_eq, compareParts_eq, compareParts_eq]
    exact Std.TransCmp.isLE_trans

/-- **Equal paths are those with the same parts.** -/
theorem compareParts_eq_eq_iff {p q : Path} : p.compareParts q = .eq ↔ p.parts = q.parts := by
  rw [compareParts_eq]
  exact Std.LawfulEqCmp.compare_eq_iff_eq

theorem sameParts_iff {p q : Path} : p.sameParts q = true ↔ p.parts = q.parts := by
  rw [sameParts, beq_iff_eq]

theorem sameParts_self (p : Path) : p.sameParts p = true :=
  sameParts_iff.mpr rfl

theorem sameParts_comm (p q : Path) : p.sameParts q = q.sameParts p := by
  rw [Bool.eq_iff_iff, sameParts_iff, sameParts_iff]
  exact eq_comm

end Path

end PlaybookPolicy
