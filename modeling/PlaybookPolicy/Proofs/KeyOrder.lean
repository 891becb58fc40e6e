import PlaybookPolicy.Proofs.TaskReading
import PlaybookPolicy.Rule.Basic

/-!
# The order of the keys of a task

Most keys of a task are looked up, and then it does not matter where they stand.  The module is
another matter: it is the first key that is no keyword, and a tag hides a key from being looked up
but not from being taken for the module.  So the order of the keys counts only between keys that may
name the module.

## Main definitions

* `Task.MayNameModule` — the key of an entry may name the module.

## Main results

* `Task.moduleEntry?_eq_of_perm` — the only key that may name the module is found wherever it
  stands.
* `Task.ofMapping_eq_of_perm` — **with at most one such key, the order of the keys does not
  matter.**
-/

namespace PlaybookPolicy

open Yaml (Value Mapping)

namespace Task

/-- The key of the entry reads as a text that is no keyword. -/
def MayNameModule (e : Value × Value) : Prop :=
  ∃ key, e.1.asText? = some key ∧ ¬IsKeyword key

variable {m m' : Mapping}

theorem isSome_moduleAt?_iff {e : Value × Value} :
    (moduleAt? e).isSome = true ↔ MayNameModule e := by
  rw [Option.isSome_iff_exists]
  constructor
  · rintro ⟨⟨name, v⟩, h⟩
    obtain ⟨hkey, hname, -⟩ := moduleAt?_eq_some_iff.mp h
    exact ⟨name, hkey, hname⟩
  · rintro ⟨name, hkey, hname⟩
    exact ⟨(name, e.2), moduleAt?_eq_some_iff.mpr ⟨hkey, hname, rfl⟩⟩

instance : DecidablePred MayNameModule := fun _ =>
  decidable_of_iff _ isSome_moduleAt?_iff

/-- The module is looked for among the keys that may name it. -/
theorem moduleEntry?_filter (m : Mapping) :
    moduleEntry? (m.filter fun e => (moduleAt? e).isSome) = moduleEntry? m := by
  rw [moduleEntry?_eq, moduleEntry?_eq, ← List.head?_filterMap, ← List.head?_filterMap,
    List.filterMap_filter]
  congr 2
  funext e
  cases moduleAt? e <;> rfl

/-- **The only key that may name the module is found wherever it stands.** -/
theorem moduleEntry?_eq_of_perm (h : m.Perm m')
    (hone : m.Pairwise fun e e' => MayNameModule e → ¬MayNameModule e') :
    moduleEntry? m' = moduleEntry? m := by
  have hpairs : m.Pairwise fun e e' =>
      (moduleAt? e).isSome = true → (moduleAt? e').isSome = false := by
    refine hone.imp fun hee' he => ?_
    rw [Bool.eq_false_iff, Ne, isSome_moduleAt?_iff]
    exact hee' (isSome_moduleAt?_iff.mp he)
  rw [← moduleEntry?_filter m', ← moduleEntry?_filter m, filter_eq_of_perm h hpairs]

/-- **The order of the keys of a task does not matter**, if at most one of them may name the module:
the task is the same, or the error is, and so is what any rule finds in it. -/
theorem ofMapping_eq_of_perm (h : m.Perm m') (hkeys : Mapping.distinctKeys m = true)
    (hone : m.Pairwise fun e e' => MayNameModule e → ¬MayNameModule e') :
    ofMapping m' = ofMapping m ∧
      ∀ (r : Rule) (file : Path),
        (ofMapping m').map (r.taskFindings file) = (ofMapping m).map (r.taskFindings file) := by
  have hget : ∀ key, Mapping.get? m' key = Mapping.get? m key :=
    Mapping.get?_eq_of_perm h.symm hkeys
  have hname : nameOf m' = nameOf m := by rw [nameOf, nameOf, hget]
  have hargs : explicitArgs m' = explicitArgs m := by rw [explicitArgs, explicitArgs, hget]
  have haction : actionValue? m' = actionValue? m := by
    rw [actionValue?, actionValue?, hget, hget]
  have hsame : ofMapping m' = ofMapping m := by
    simp only [ofMapping, hname, hargs, haction, moduleEntry?_eq_of_perm h hone]
  exact ⟨hsame, fun r file => by rw [hsame]⟩

/-- A mail with tags on the keys of a second name and of the module. -/
def taggedEntries : Mapping :=
  [(.text "name", .text "Notify"), (.tagged "!other" (.text "name"), .text "Notify again"),
    (.text "with_items", .sequence [.int 1]),
    (.text "args", .mapping [(.text "to", .text "ops@customer.com")]),
    (.tagged "!module" (.text "mail"), .text "to=x@evil.org")]

theorem ofMapping_eq_of_perm_taggedEntries :
    taggedEntries.Perm taggedEntries.reverse ∧ Mapping.distinctKeys taggedEntries = true ∧
      (taggedEntries.Pairwise fun e e' => MayNameModule e → ¬MayNameModule e') ∧
        ofMapping taggedEntries.reverse = ofMapping taggedEntries ∧
          (ofMapping taggedEntries.reverse).map (fun t => (t.moduleName, t.name)) =
            .ok ("mail", some "Notify") := by
  have hperm : taggedEntries.Perm taggedEntries.reverse := (List.reverse_perm _).symm
  have hkeys : Mapping.distinctKeys taggedEntries = true := by decide +kernel
  have hone : taggedEntries.Pairwise fun e e' => MayNameModule e → ¬MayNameModule e' := by decide
  obtain ⟨hsame, -⟩ := ofMapping_eq_of_perm hperm hkeys hone
  exact ⟨hperm, hkeys, hone, hsame, hsame ▸ rfl⟩

/-- Of two keys that may name the module, the first one does. -/
example :
    (ofMapping [(.text "mail", .null), (.text "ping", .null)]).map Task.moduleName = .ok "mail" ∧
      (ofMapping [(.text "ping", .null), (.text "mail", .null)]).map Task.moduleName =
        .ok "ping" :=
  ⟨rfl, rfl⟩

end Task

end PlaybookPolicy
