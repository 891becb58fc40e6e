import Mathlib.Data.List.Basic

/-!
# Steps along a list

A step is made for each element of a list, and any step may fail; then so does the whole.

## Main results

* `mapM_cons_eq_ok_iff`, `mapM_cons_eq_error_iff` — the first step, and the rest.
* `exists_mapM_ok_iff` — all steps succeed.
* `mem_flatten_iff_of_mapM_ok` — what the steps have found together.
* `toOption_mapM_congr` — steps that agree but for their errors.
-/

namespace PlaybookPolicy

variable {α β ε : Type} {f f' : α → Except ε β} {a : α} {l : List α}

theorem mapM_cons_eq_ok_iff {ms : List β} :
    (a :: l).mapM f = .ok ms ↔ ∃ m ms', f a = .ok m ∧ l.mapM f = .ok ms' ∧ ms = m :: ms' := by
  rw [List.mapM_cons]
  cases f a with
  | error e => simp [bind, Except.bind]
  | ok m => cases l.mapM f <;> simp [bind, Except.bind, pure, Except.pure, eq_comm]

theorem mapM_cons_eq_error_iff {e : ε} :
    (a :: l).mapM f = .error e ↔ f a = .error e ∨ ∃ m, f a = .ok m ∧ l.mapM f = .error e := by
  rw [List.mapM_cons]
  cases f a with
  | error e' => simp [bind, Except.bind]
  | ok m => cases l.mapM f <;> simp [bind, Except.bind, pure, Except.pure]

theorem exists_error_iff {r : Except ε α} : (∃ e, r = .error e) ↔ ¬∃ a, r = .ok a := by
  cases r <;> simp

/-- All steps together succeed if each one does. -/
theorem exists_mapM_ok_iff : (∃ ms, l.mapM f = .ok ms) ↔ ∀ a ∈ l, ∃ m, f a = .ok m := by
  induction l with
  | nil => exact ⟨fun _ _ ha => absurd ha List.not_mem_nil, fun _ => ⟨[], rfl⟩⟩
  | cons a l ih =>
    rw [List.forall_mem_cons, ← ih]
    constructor
    · rintro ⟨ms, h⟩
      obtain ⟨m, ms', ha, hl, -⟩ := mapM_cons_eq_ok_iff.mp h
      exact ⟨⟨m, ha⟩, ms', hl⟩
    · rintro ⟨⟨m, ha⟩, ms', hl⟩
      exact ⟨m :: ms', mapM_cons_eq_ok_iff.mpr ⟨m, ms', ha, hl, rfl⟩⟩

/-- An error of several steps is the error of one of them. -/
theorem exists_of_mapM_error {e : ε} (h : l.mapM f = .error e) : ∃ a ∈ l, f a = .error e := by
  induction l with
  | nil => cases h
  | cons a l ih =>
    rcases mapM_cons_eq_error_iff.mp h with ha | ⟨m, -, hl⟩
    · exact ⟨a, List.mem_cons_self, ha⟩
    · obtain ⟨a', ha', he⟩ := ih hl
      exact ⟨a', List.mem_cons_of_mem a ha', he⟩

/-- What the steps have found together. -/
theorem mem_flatten_iff_of_mapM_ok {f : α → Except ε (List β)} {ms : List (List β)}
    (h : l.mapM f = .ok ms) {b : β} :
    b ∈ ms.flatten ↔ ∃ a ∈ l, ∃ m, f a = .ok m ∧ b ∈ m := by
  induction l generalizing ms with
  | nil =>
    cases h
    simp
  | cons a l ih =>
    obtain ⟨m, ms', ha, hl, rfl⟩ := mapM_cons_eq_ok_iff.mp h
    rw [List.flatten_cons, List.mem_append, ih hl, List.exists_mem_cons_iff]
    simp [ha]

theorem toOption_mapM_congr (hf : ∀ a ∈ l, (f' a).toOption = (f a).toOption) :
    (l.mapM f').toOption = (l.mapM f).toOption := by
  induction l with
  | nil => rfl
  | cons a l ih =>
    have ha := hf a List.mem_cons_self
    have hl := ih fun a ha => hf a (List.mem_cons_of_mem _ ha)
    rw [List.mapM_cons, List.mapM_cons]
    cases hfa : f a <;> cases hfa' : f' a <;> rw [hfa, hfa'] at ha <;> cases ha
    · rfl
    · cases hfl : l.mapM f <;> cases hfl' : l.mapM f' <;> rw [hfl, hfl'] at hl <;> cases hl <;> rfl

end PlaybookPolicy
