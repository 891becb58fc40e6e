import PlaybookPolicy.PlaybookFile.NameLines
import PlaybookPolicy.Task.Basic

/-!
# Tasks in document order

A walk through a list of items meets blocks and tasks, one after the other; the tasks inside a block
come in the order of its sections. The walk carries the last line it has found: a block or a task
with a name is looked for below that line, and what is met later below its line.

## Main definitions

* `isBlock` — the mapping holds sections instead of a module.
* `sectionItems` — the items of a section of a play or a block.
* `NameLines.locateName?` — the line that declares a name which may be missing.
* `collectTasks` — the tasks of a list of items with their lines, and the last line found.
-/

namespace PlaybookPolicy

open Yaml (Value Mapping)

/-- The sections of a block. -/
def blockSections : List String :=
  ["block", "rescue", "always"]

/-- The value is a sequence, and not a tagged one. -/
def isSequence : Value → Bool
  | .sequence _ => true
  | _ => false

/-- The mapping is a block: one of the sections is a sequence. -/
def isBlock (m : Mapping) : Bool :=
  blockSections.any fun s => (Mapping.get? m s).any isSequence

/-- The items of a section of a play or a block; none if it is no sequence. -/
def sectionItems (m : Mapping) (key : String) : List Value :=
  match Mapping.get? m key with
  | some (.sequence items) => items
  | _ => []

/-! ### Sizes of parts -/

theorem sizeOf_untagged (v : Value) : sizeOf v.untagged ≤ sizeOf v := by
  fun_induction Value.untagged v with
  | case1 tag v ih => simp only [Value.tagged.sizeOf_spec]; omega
  | case2 v h => exact Nat.le_refl _

theorem sizeOf_lt_of_asMapping? {v : Value} {m : Mapping} (h : v.asMapping? = some m) :
    sizeOf m < sizeOf v := by
  have hle := sizeOf_untagged v
  simp only [Value.asMapping?] at h
  split at h
  next entries he =>
    cases h
    rw [he] at hle
    simp only [Value.mapping.sizeOf_spec] at hle
    omega
  next => cases h

theorem sizeOf_lt_of_get? {m : Mapping} {key : String} {v : Value}
    (h : Mapping.get? m key = some v) : sizeOf v < sizeOf m := by
  simp only [Mapping.get?, Option.map_eq_some_iff] at h
  obtain ⟨e, he, rfl⟩ := h
  have hmem := List.sizeOf_lt_of_mem (List.mem_of_find?_eq_some he)
  obtain ⟨k, w⟩ := e
  simp only [Prod.mk.sizeOf_spec] at hmem
  show sizeOf w < sizeOf m
  omega

theorem sizeOf_sectionItems_le (m : Mapping) (key : String) :
    sizeOf (sectionItems m key) ≤ sizeOf m := by
  unfold sectionItems
  split
  · next items h =>
    have hlt := sizeOf_lt_of_get? h
    simp only [Value.sequence.sizeOf_spec] at hlt
    omega
  · cases m with
    | nil => exact Nat.le_refl _
    | cons e m =>
      simp only [List.nil.sizeOf_spec, List.cons.sizeOf_spec]
      omega

/-! ### The walk -/

/-- The first line that declares the name, if there is one, and comes after line `after`. -/
def NameLines.locateName? (names : NameLines) (name? : Option String) (after : Nat) : Option Nat :=
  name?.bind fun name => names.locate? name after

mutual

/-- The tasks of one item, looked for below line `cursor`, and the last line found, which is
`cursor` if there is none. What is no mapping is passed over, and so is a task without a module. -/
def collectItem (names : NameLines) (cursor : Nat) (v : Value) : List Task × Nat :=
  match h : v.asMapping? with
  | none => ([], cursor)
  | some m =>
    have := sizeOf_lt_of_asMapping? h
    if isBlock m then
      let start := (names.locateName? (Task.nameOf m) cursor).getD cursor
      collectBlock names start m blockSections
    else
      match Task.ofMapping m with
      | .ok t =>
        let line := names.locateName? t.name cursor
        ([{ t with line }], line.getD cursor)
      | .error _ => ([], cursor)
-- an item exceeds the mapping in it by enough for the sections of a block
termination_by 8 * sizeOf v
decreasing_by
  simp only [blockSections, List.length_cons, List.length_nil]
  omega

/-- The tasks of the given sections of a block, and the last line found. -/
def collectBlock (names : NameLines) (cursor : Nat) (m : Mapping) (keys : List String) :
    List Task × Nat :=
  match keys with
  | [] => ([], cursor)
  | key :: keys =>
    let (tasks, cursor) := collectTasks names cursor (sectionItems m key)
    let (more, cursor) := collectBlock names cursor m keys
    (tasks ++ more, cursor)
termination_by 8 * sizeOf m + keys.length + 1
decreasing_by
  · have hle := sizeOf_sectionItems_le m key
    omega
  · simp only [List.length_cons]
    omega

/-- The tasks of a list of items with their lines, looked for below line `cursor`, and the last line
found. -/
def collectTasks (names : NameLines) (cursor : Nat) (items : List Value) : List Task × Nat :=
  match items with
  | [] => ([], cursor)
  | v :: l =>
    let (tasks, cursor) := collectItem names cursor v
    let (more, cursor) := collectTasks names cursor l
    (tasks ++ more, cursor)
termination_by 8 * sizeOf items
decreasing_by
  all_goals
    simp only [List.cons.sizeOf_spec]
    omega

end

end PlaybookPolicy
