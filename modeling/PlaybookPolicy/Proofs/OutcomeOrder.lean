import Mathlib.Data.List.Pairwise
import PlaybookPolicy.Proofs.LoadedFile
import PlaybookPolicy.Proofs.PathOrder
import PlaybookPolicy.Proofs.StableSort

/-!
# The outcome of a run does not show the order of files

Findings are sorted by file, line and rule, but not by what they say.  Two findings that compare as
equal stand in files with the same parts, hence in one file if the files of a run are distinct; and
within a file the sort keeps the order in which the rules found them.

## Main definitions

* `Finding.Precedes` — the order of findings in an outcome.

## Main results

* `Finding.comesBefore_iff` — findings are sorted by this order.
* `FileTree.lint_eq_of_perm` — **the files of a run may be given in any order.**
-/

namespace PlaybookPolicy

/-! ### The order of findings -/

/-- A comparison of the places of things compares the things. -/
theorem transCmp_of_map {α β : Type} (cmp : β → β → Ordering) [Std.TransCmp cmp] (f : α → β) :
    Std.TransCmp fun a b => cmp (f a) (f b) where
  eq_swap := Std.OrientedCmp.eq_swap
  isLE_trans := Std.TransCmp.isLE_trans

theorem compareLines_eq (a b : Option Nat) : compareLines a b = compare a b := by
  cases a <;> cases b <;> rfl

theorem compareLines_eq_lt_iff {a b : Option Nat} : compareLines a b = .lt ↔ a < b := by
  cases a with
  | none => cases b <;> simp [compareLines]
  | some m =>
    cases b with
    | none => simp [compareLines]
    | some n => simp [compareLines, Nat.compare_eq_lt]

theorem compareLines_eq_eq_iff {a b : Option Nat} : compareLines a b = .eq ↔ a = b := by
  rw [compareLines_eq]
  exact Std.LawfulEqCmp.compare_eq_iff_eq

theorem isLE_compare_string {s t : String} : (compare s t).isLE = true ↔ s ≤ t :=
  isLE_compareOfLessAndEq (fun {_ _} => String.le_antisymm) (fun {_ _} => String.not_le)
    String.le_total

namespace Finding

/-- The order of findings: the file that comes first, and in files with the same parts the smaller
line, where no line comes before all lines, and on the same line the smaller rule id. -/
def Precedes (a b : Finding) : Prop :=
  a.file.compareParts b.file = .lt ∨
    a.file.parts = b.file.parts ∧
      (a.line < b.line ∨ a.line = b.line ∧ a.rule.text ≤ b.rule.text)

theorem comesBefore_iff {a b : Finding} : a.comesBefore b = true ↔ a.Precedes b := by
  rw [comesBefore, compare, Ordering.isLE_then_iff_or, Ordering.isLE_then_iff_or,
    Path.compareParts_eq_eq_iff, compareLines_eq_lt_iff, compareLines_eq_eq_iff,
    isLE_compare_string]
  rfl

/-- Findings that compare as equal differ in what they say and in their tasks, but in nothing else
that places them. -/
theorem compare_eq_eq_iff {a b : Finding} :
    a.compare b = .eq ↔ a.file.parts = b.file.parts ∧ a.line = b.line ∧ a.rule = b.rule := by
  rw [compare, Ordering.then_eq_eq, Ordering.then_eq_eq, Path.compareParts_eq_eq_iff,
    compareLines_eq_eq_iff, Std.LawfulEqCmp.compare_eq_iff_eq]
  have hrule : a.rule.text = b.rule.text ↔ a.rule = b.rule := by
    cases a.rule
    cases b.rule
    simp
  rw [hrule]

instance : Std.TransCmp Finding.compare := by
  have hfile := transCmp_of_map Path.compareParts Finding.file
  have heq : Finding.compare = compareLex (fun a b => a.file.compareParts b.file)
      (compareLex (compareOn Finding.line) (compareOn fun x => x.rule.text)) := by
    funext a b
    rw [compare, compareLines_eq]
    rfl
  rw [heq]
  infer_instance

end Finding

/-! ### Runs -/

/-- Of a list without repetitions, one element is enough if the others give nothing. -/
theorem flatMap_eq_of_mem {α ι : Type} {G : ι → List α} {l : List ι} {i : ι} (hi : i ∈ l)
    (hl : l.Nodup) (h : ∀ j ∈ l, j ≠ i → G j = []) : l.flatMap G = G i := by
  obtain ⟨l₁, l₂, rfl⟩ := List.append_of_mem hi
  obtain ⟨-, hcons, hdisjoint⟩ := List.nodup_append.mp hl
  have hl₁ : l₁.flatMap G = [] := List.flatMap_eq_nil_iff.mpr fun j hj =>
    h j (by simp [hj]) (hdisjoint j hj i List.mem_cons_self)
  have hl₂ : l₂.flatMap G = [] := List.flatMap_eq_nil_iff.mpr fun j hj =>
    h j (by simp [hj]) fun hji => (List.nodup_cons.mp hcons).1 (hji ▸ hj)
  rw [List.flatMap_append, List.flatMap_cons, hl₁, hl₂, List.append_nil, List.nil_append]

namespace FileTree

variable {t : FileTree} {g : Registry} {l₁ l₂ : List Path}

/-- Findings in distinct files never compare as equal, and neither do failures. -/
theorem apart_of_sameParts {α : Type} {F : Path → List α} {place : α → Path}
    {cmp : α → α → Ordering} (hplace : ∀ p, ∀ x ∈ F p, place x = p)
    (hcmp : ∀ x y, cmp x y = .eq → (place x).parts = (place y).parts)
    (hdistinct : l₁.Pairwise fun p q => p.sameParts q = false) :
    l₁.Pairwise fun p q => ∀ x ∈ F p, ∀ y ∈ F q, cmp x y ≠ .eq := by
  refine hdistinct.imp ?_
  intro p q hpq x hx y hy hxy
  have hparts := hcmp x y hxy
  rw [hplace p x hx, hplace q y hy] at hparts
  rw [Path.sameParts_iff.mpr hparts] at hpq
  cases hpq

theorem findings_eq_of_perm (h : l₁.Perm l₂)
    (hdistinct : l₁.Pairwise fun p q => p.sameParts q = false) :
    (t.lint g l₁).findings = (t.lint g l₂).findings := by
  rw [lint_eq, lint_eq]
  refine mergeSort_flatMap_eq_of_perm Finding.compare h ?_
  exact apart_of_sameParts (fun p x hx => file_of_mem_findingsAt hx)
    (fun x y hxy => (Finding.compare_eq_eq_iff.mp hxy).1) hdistinct

theorem failures_eq_of_perm (h : l₁.Perm l₂)
    (hdistinct : l₁.Pairwise fun p q => p.sameParts q = false) :
    (t.lint g l₁).failures = (t.lint g l₂).failures := by
  rw [lint_eq, lint_eq]
  simp only [List.filterMap_eq_flatMap_toList]
  have hcmp := transCmp_of_map Path.compareParts LoadFailure.path
  refine mergeSort_flatMap_eq_of_perm (fun a b : LoadFailure => a.path.compareParts b.path) h ?_
  exact apart_of_sameParts
    (fun p x hx => path_of_failureAt? (Option.mem_toList.mp hx))
    (fun x y hxy => Path.compareParts_eq_eq_iff.mp hxy) hdistinct

/-- Within a file the sort keeps the order in which findings were made. -/
theorem filter_findings (hdistinct : l₁.Pairwise fun p q => p.sameParts q = false) {p : Path}
    (hp : p ∈ l₁) {f : PlaybookFile} (hf : t.load p = .ok f) (line : Option Nat) (rule : RuleId) :
    ((t.lint g l₁).findings.filter fun x => x.file.sameParts p && x.line == line && x.rule == rule)
      = (f.findings g).filter fun x => x.line == line && x.rule == rule := by
  have hequal : ∀ a b : Finding,
      (a.file.sameParts p && a.line == line && a.rule == rule) = true →
      (b.file.sameParts p && b.line == line && b.rule == rule) = true →
      (a.compare b).isLE = true := by
    intro a b ha hb
    simp only [Bool.and_eq_true, Path.sameParts_iff, beq_iff_eq] at ha hb
    rw [Finding.compare_eq_eq_iff.mpr ⟨ha.1.1.trans hb.1.1.symm, ha.1.2.trans hb.1.2.symm,
      ha.2.trans hb.2.symm⟩]
    rfl
  rw [lint_eq]
  show (List.mergeSort _ fun a b => (Finding.compare a b).isLE).filter _ = _
  -- these findings compare as equal, so the stable sort leaves them as they were
  rw [filter_mergeSort Finding.compare hequal, List.filter_flatMap]
  have hnodup : l₁.Nodup := hdistinct.imp fun hpq heq => by
    rw [heq, Path.sameParts_self] at hpq
    cases hpq
  have hsymm : Std.Symm fun p q : Path => p.sameParts q = false :=
    ⟨fun p q hpq => by rw [Path.sameParts_comm, hpq]⟩
  have hother : ∀ q ∈ l₁, q ≠ p → q.sameParts p = false := fun q hq hqp =>
    hdistinct.forall hq hp hqp
  -- the other files have no findings in this one
  rw [flatMap_eq_of_mem hp hnodup]
  · refine (List.filter_congr ?_).trans (congrArg _ (findingsAt_of_load hf))
    intro x hx
    rw [file_of_mem_findingsAt hx, Path.sameParts_self, Bool.true_and]
  · intro q hq hqp
    rw [List.filter_eq_nil_iff]
    intro x hx
    rw [file_of_mem_findingsAt hx, hother q hq hqp]
    simp

theorem pairwise_findings (files : List Path) :
    (t.lint g files).findings.Pairwise Finding.Precedes := by
  rw [lint_eq]
  exact (pairwise_mergeSort_isLE Finding.compare _).imp Finding.comesBefore_iff.mp

theorem pairwise_failures (files : List Path) :
    (t.lint g files).failures.Pairwise fun a b => a.path.compareParts b.path ≠ .gt := by
  rw [lint_eq]
  have hcmp := transCmp_of_map Path.compareParts LoadFailure.path
  refine (pairwise_mergeSort_isLE (fun a b : LoadFailure => a.path.compareParts b.path) _).imp ?_
  intro a b hab hgt
  rw [hgt] at hab
  cases hab

/-- **The files of a run may be given in any order.**  Of distinct files the outcome is the same:
the same findings in the same order, and the same failures.  Findings stand in their order, those in
the same file, on the same line and of the same rule as they were found, and failures in the order
of their paths. -/
theorem lint_eq_of_perm (h : l₁.Perm l₂)
    (hdistinct : l₁.Pairwise fun p q => p.sameParts q = false) :
    t.lint g l₁ = t.lint g l₂ ∧
    (t.lint g l₁).findings.Pairwise Finding.Precedes ∧
    (∀ p ∈ l₁, ∀ f, t.load p = .ok f → ∀ (line : Option Nat) (rule : RuleId),
      ((t.lint g l₁).findings.filter fun x =>
          x.file.sameParts p && x.line == line && x.rule == rule)
        = (f.findings g).filter fun x => x.line == line && x.rule == rule) ∧
    (t.lint g l₁).failures.Pairwise fun a b => a.path.compareParts b.path ≠ .gt := by
  refine ⟨?_, pairwise_findings l₁, ?_, pairwise_failures l₁⟩
  · have hfindings := findings_eq_of_perm (t := t) (g := g) h hdistinct
    have hfailures := failures_eq_of_perm (t := t) (g := g) h hdistinct
    rw [lint_eq, lint_eq] at hfindings hfailures
    rw [lint_eq, lint_eq, Outcome.mk.injEq]
    exact ⟨hfindings, hfailures, h.length_eq, rfl⟩
  · intro p hp f hf line rule
    exact filter_findings hdistinct hp hf line rule

theorem lint_sampleTree :
    (sampleTree.lint .builtin [Path.ofText "b.yml", Path.ofText "a.yml"]).findings.length = 2 ∧
    (sampleTree.lint .builtin [Path.ofText "b.yml", Path.ofText "a.yml"]).failures.length = 1 ∧
    sampleTree.lint .builtin [Path.ofText "b.yml", Path.ofText "a.yml"]
      = sampleTree.lint .builtin [Path.ofText "a.yml", Path.ofText "b.yml"] := by
  refine ⟨?_, ?_, (lint_eq_of_perm (.swap ..) (by decide +kernel)).1⟩
  · rw [lint_eq, List.length_mergeSort]
    decide +kernel
  · rw [lint_eq, List.length_mergeSort]
    decide +kernel

end FileTree

end PlaybookPolicy
