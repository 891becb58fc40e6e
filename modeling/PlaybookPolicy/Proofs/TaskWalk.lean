import PlaybookPolicy.Proofs.TaskFlattening

/-!
# What a walk meets

The walk that collects tasks descends into blocks and carries a line along.  Seen from the line, the
nesting makes no difference: the walk meets blocks, tasks and mappings without a module in one
order, looks for the names of the first two, each below the last line found, and goes on.  So the
walk through nested items is one pass over the list of what they hold, and two lists of items with
the same visits are walked alike.

## Main definitions

* `Visit`, `visitsOf` — what a walk meets, and the visits below an item in their order.
* `Visit.wanted` — the name that the walk looks for at a visit.
* `locateVisits`, `placedTasks`, `lastLine` — the visits with their lines; the tasks among them, and
  the last line found.
* `gatherTasks` — the tasks of a pass over visits, and where it ends.
* `Groups` — a mapping without a name holds three lists of items as its sections.

## Main results

* `collectTasks_eq` — **the walk is one pass over its visits.**
* `gatherTasks_append` — visits are gone through one part after the other.
* `collectTasks_group` — **a block without a name changes nothing.**
-/

namespace PlaybookPolicy

open Yaml (Value Mapping)

/-! ### Visits -/

/-- What a walk through a list of items meets. -/
inductive Visit where
  /-- A block, met before what its sections hold. -/
  | block (name : Option String)
  /-- A task. -/
  | task (t : Task)
  /-- A mapping that names no module, which the walk passes over. -/
  | skipped (name : Option String)

namespace Visit

/-- The visit to a mapping. -/
def ofMapping (m : Mapping) : Visit :=
  if (blockParts m).isEmpty then
    match Task.ofMapping m with
    | .ok t => .task t
    | .error _ => .skipped (Task.nameOf m)
  else .block (Task.nameOf m)

/-- The name that the mapping bears. -/
def name : Visit → Option String
  | block name => name
  | task t => t.name
  | skipped name => name

/-- The name that the walk looks for: that of a block or of a task. -/
def wanted : Visit → Option String
  | block name => name
  | task t => t.name
  | skipped _ => none

/-- The line that the walk finds below line `cursor`. -/
def line? (names : NameLines) (cursor : Nat) (v : Visit) : Option Nat :=
  names.locateName? v.wanted cursor

theorem line?_of_wanted {names : NameLines} {cursor : Nat} {v : Visit} {name : String}
    (h : v.wanted = some name) : v.line? names cursor = names.locate? name cursor := by
  rw [line?, h, NameLines.locateName?, Option.bind_some]

/-- The task with the line, if the visit is to a task. -/
def placed? (line : Option Nat) : Visit → Option Task
  | task t => some { t with line }
  | _ => none

end Visit

/-- The visits below an item: a mapping comes first, and then what its `block`, `rescue` and
`always` sequences hold, in this order.  What is no mapping is not met at all. -/
def visitsOf (v : Value) : List Visit :=
  match h : v.asMapping? with
  | none => []
  | some m =>
    .ofMapping m :: (blockParts m).attach.flatMap fun ⟨items, hitems⟩ =>
      items.attach.flatMap fun ⟨w, hw⟩ =>
        have := List.sizeOf_lt_of_mem hw
        have := sizeOf_lt_of_mem_blockParts hitems
        have := sizeOf_lt_of_asMapping? h
        visitsOf w
termination_by sizeOf v
decreasing_by omega

theorem visitsOf_eq_nil {v : Value} (h : v.asMapping? = none) : visitsOf v = [] := by
  rw [visitsOf]
  split
  · rfl
  · next m hm => rw [h] at hm; cases hm

theorem visitsOf_eq_cons {v : Value} {m : Mapping} (h : v.asMapping? = some m) :
    visitsOf v = .ofMapping m :: (blockParts m).flatMap fun items => items.flatMap visitsOf := by
  rw [visitsOf]
  split
  · next hn => rw [h] at hn; cases hn
  · next m' hm =>
    rw [h] at hm
    cases hm
    simp only [List.flatMap_subtype, List.unattach_attach]

/-! ### The pass over visits -/

/-- The visits, each with the line that is found for it below the last line found before. -/
def locateVisits (names : NameLines) : Nat → List Visit → List (Visit × Option Nat)
  | _, [] => []
  | cursor, v :: l =>
    (v, v.line? names cursor) :: locateVisits names ((v.line? names cursor).getD cursor) l

/-- The tasks among visits, with their lines. -/
def placedTasks (l : List (Visit × Option Nat)) : List Task :=
  l.filterMap fun (v, line) => v.placed? line

/-- The last line found for visits, which is `cursor` if none is found. -/
def lastLine (cursor : Nat) (l : List (Visit × Option Nat)) : Nat :=
  (l.filterMap Prod.snd).getLastD cursor

/-- The tasks of a pass over visits, and the last line found. -/
def gatherTasks (names : NameLines) (cursor : Nat) (l : List Visit) : List Task × Nat :=
  (placedTasks (locateVisits names cursor l), lastLine cursor (locateVisits names cursor l))

theorem lastLine_cons (cursor : Nat) (v : Visit) (line : Option Nat)
    (l : List (Visit × Option Nat)) :
    lastLine cursor ((v, line) :: l) = lastLine (line.getD cursor) l := by
  cases line with
  | none => rfl
  | some k => exact List.getLastD_cons

theorem map_fst_locateVisits (names : NameLines) :
    ∀ (l : List Visit) (cursor : Nat), (locateVisits names cursor l).map Prod.fst = l := by
  intro l
  induction l with
  | nil => intro cursor; rfl
  | cons v l ih =>
    intro cursor
    rw [locateVisits, List.map_cons, ih]

/-- Visits are gone through one part after the other, the second from where the first has ended. -/
theorem locateVisits_append (names : NameLines) (m : List Visit) :
    ∀ (l : List Visit) (cursor : Nat), locateVisits names cursor (l ++ m) =
      locateVisits names cursor l ++
        locateVisits names (lastLine cursor (locateVisits names cursor l)) m := by
  intro l
  induction l with
  | nil => intro cursor; rfl
  | cons v l ih =>
    intro cursor
    rw [List.cons_append, locateVisits, locateVisits, ih, lastLine_cons, List.cons_append]

theorem lastLine_append (m : List (Visit × Option Nat)) :
    ∀ (l : List (Visit × Option Nat)) (cursor : Nat),
      lastLine cursor (l ++ m) = lastLine (lastLine cursor l) m := by
  intro l
  induction l with
  | nil => intro cursor; rfl
  | cons e l ih =>
    intro cursor
    obtain ⟨v, line⟩ := e
    rw [List.cons_append, lastLine_cons, lastLine_cons, ih]

theorem gatherTasks_append (names : NameLines) (cursor : Nat) (l m : List Visit) :
    gatherTasks names cursor (l ++ m) =
      ((gatherTasks names cursor l).1 ++ (gatherTasks names (gatherTasks names cursor l).2 m).1,
        (gatherTasks names (gatherTasks names cursor l).2 m).2) := by
  simp only [gatherTasks, locateVisits_append, lastLine_append, placedTasks, List.filterMap_append]

theorem gatherTasks_singleton (names : NameLines) (cursor : Nat) (v : Visit) :
    gatherTasks names cursor [v] =
      ((v.placed? (v.line? names cursor)).toList, (v.line? names cursor).getD cursor) := by
  simp only [gatherTasks, locateVisits, placedTasks, lastLine_cons, List.filterMap_cons,
    List.filterMap_nil]
  cases v.placed? (v.line? names cursor) <;> rfl

mutual

theorem collectItem_eq (names : NameLines) (cursor : Nat) (v : Value) :
    collectItem names cursor v = gatherTasks names cursor (visitsOf v) := by
  rw [collectItem]
  split
  · next hn => rw [visitsOf_eq_nil hn]; rfl
  · next m hm =>
    have hlt := sizeOf_lt_of_asMapping? hm
    rw [visitsOf_eq_cons hm, Visit.ofMapping, isBlock_eq]
    cases hparts : (blockParts m).isEmpty with
    | true =>
      -- what is no block has no visits below it
      rw [List.isEmpty_iff.mp hparts, List.flatMap_nil, gatherTasks_singleton]
      cases ht : Task.ofMapping m with
      | error e => rfl
      | ok t => rfl
    | false =>
      -- the visit to a block moves the line, and its sections are walked from there
      have hsections := collectBlock_eq names
        ((names.locateName? (Task.nameOf m) cursor).getD cursor) m blockSections
      rw [← List.singleton_append, gatherTasks_append, gatherTasks_singleton]
      exact hsections
termination_by 8 * sizeOf v
decreasing_by
  simp only [blockSections, List.length_cons, List.length_nil]
  omega

theorem collectBlock_eq (names : NameLines) (cursor : Nat) (m : Mapping) (keys : List String) :
    collectBlock names cursor m keys =
      gatherTasks names cursor ((keys.filterMap (sequenceAt? m)).flatMap fun items =>
        items.flatMap visitsOf) := by
  cases keys with
  | nil => rw [collectBlock]; rfl
  | cons key keys =>
    -- the visits in the first section come before those in the others
    rw [← flatMap_sectionItems, List.flatMap_cons, flatMap_sectionItems, gatherTasks_append,
      ← collectTasks_eq, ← collectBlock_eq, collectBlock]
termination_by 8 * sizeOf m + keys.length + 1
decreasing_by
  · have hle := sizeOf_sectionItems_le m key
    omega
  · simp only [List.length_cons]
    omega

/-- **The walk is one pass over its visits**, however deep the blocks are nested that it meets. -/
theorem collectTasks_eq (names : NameLines) (cursor : Nat) (items : List Value) :
    collectTasks names cursor items = gatherTasks names cursor (items.flatMap visitsOf) := by
  cases items with
  | nil => rw [collectTasks]; rfl
  | cons v l =>
    rw [List.flatMap_cons, gatherTasks_append, ← collectItem_eq, ← collectTasks_eq, collectTasks]
termination_by 8 * sizeOf items
decreasing_by
  all_goals
    simp only [List.cons.sizeOf_spec]
    omega

end

/-! ### Grouping -/

/-- The items under a key are these; the key may be missing if there are none. -/
def HoldsItems (m : Mapping) (key : String) (items : List Value) : Prop :=
  Mapping.get? m key = some (.sequence items) ∨ Mapping.get? m key = none ∧ items = []

/-- The mapping is a block without a name, and its sections hold the three lists of items.  Whatever
other entries it has, and whatever their order is, makes no difference. -/
structure Groups (m : Mapping) (a b c : List Value) : Prop where
  /-- No name reads as a text; without a `name` entry there is none. -/
  unnamed : Task.nameOf m = none
  /-- The first section. -/
  block : HoldsItems m "block" a
  /-- The section behind it. -/
  rescue : HoldsItems m "rescue" b
  /-- The last section. -/
  always : HoldsItems m "always" c
  /-- Not all sections are missing. -/
  isBlock : ∃ key ∈ ["block", "rescue", "always"], Mapping.get? m key ≠ none

theorem HoldsItems.sequenceAt?_getD {m : Mapping} {key : String} {items : List Value}
    (h : HoldsItems m key items) : (sequenceAt? m key).getD [] = items := by
  unfold sequenceAt?
  rcases h with h | ⟨h, rfl⟩
  · rw [h]; rfl
  · rw [h]; rfl

theorem HoldsItems.sequenceAt?_ne_none {m : Mapping} {key : String} {items : List Value}
    (h : HoldsItems m key items) (hkey : Mapping.get? m key ≠ none) :
    sequenceAt? m key ≠ none := by
  unfold sequenceAt?
  rcases h with h | ⟨h, -⟩
  · rw [h]; exact Option.some_ne_none items
  · exact absurd h hkey

namespace Groups

variable {m : Mapping} {a b c : List Value}

theorem ofMapping_eq (h : Groups m a b c) : Visit.ofMapping m = .block none := by
  have hparts : (blockParts m).isEmpty = false := by
    obtain ⟨key, hmem, hkey⟩ := h.isBlock
    have hsequence : sequenceAt? m key ≠ none := by
      simp only [List.mem_cons, List.not_mem_nil, or_false] at hmem
      rcases hmem with rfl | rfl | rfl
      · exact h.block.sequenceAt?_ne_none hkey
      · exact h.rescue.sequenceAt?_ne_none hkey
      · exact h.always.sequenceAt?_ne_none hkey
    obtain ⟨items, hitems⟩ := Option.ne_none_iff_exists'.mp hsequence
    rw [List.isEmpty_eq_false_iff]
    exact List.ne_nil_of_mem (List.mem_filterMap.mpr ⟨key, hmem, hitems⟩)
  rw [Visit.ofMapping, hparts, if_neg Bool.false_ne_true, h.unnamed]

/-- The visits below a group are those to itself and then to its items. -/
theorem visitsOf_eq {v : Value} (hv : v.asMapping? = some m) (h : Groups m a b c) :
    visitsOf v = .block none :: (a ++ b ++ c).flatMap visitsOf := by
  have hsections := flatMap_sectionItems m visitsOf ["block", "rescue", "always"]
  simp only [List.flatMap_cons, List.flatMap_nil, List.append_nil, sectionItems_eq,
    h.block.sequenceAt?_getD, h.rescue.sequenceAt?_getD, h.always.sequenceAt?_getD] at hsections
  rw [visitsOf_eq_cons hv, h.ofMapping_eq, blockParts, ← hsections, List.flatMap_append,
    List.flatMap_append, List.append_assoc]

end Groups

/-- A visit to a block without a name leaves no trace. -/
theorem gatherTasks_cons_block_none (names : NameLines) (cursor : Nat) (l : List Visit) :
    gatherTasks names cursor (.block none :: l) = gatherTasks names cursor l := by
  rw [← List.singleton_append, gatherTasks_append, gatherTasks_singleton]
  rfl

/-- **A block without a name changes nothing.**  Items that are put into the sections of such a
block, at any place of a list, are walked as they are without it: the tasks are the same and have
the same lines, and the walk ends at the same line. -/
theorem collectTasks_group (names : NameLines) (cursor : Nat) {v : Value} {m : Mapping}
    (hv : v.asMapping? = some m) {a b c : List Value} (h : Groups m a b c)
    (xs zs : List Value) :
    collectTasks names cursor (xs ++ v :: zs)
      = collectTasks names cursor (xs ++ a ++ b ++ c ++ zs) := by
  rw [collectTasks_eq, collectTasks_eq]
  have hvisits : (xs ++ v :: zs).flatMap visitsOf =
      xs.flatMap visitsOf ++ .block none :: (a ++ b ++ c ++ zs).flatMap visitsOf := by
    rw [List.flatMap_append, List.flatMap_cons, h.visitsOf_eq hv, List.cons_append,
      ← List.flatMap_append]
  have hitems : xs ++ a ++ b ++ c ++ zs = xs ++ (a ++ b ++ c ++ zs) := by
    simp only [List.append_assoc]
  rw [hvisits, hitems, gatherTasks_append, gatherTasks_cons_block_none, ← gatherTasks_append,
    ← List.flatMap_append]

/-- A task with a name. -/
def namedPing (name : String) : Value :=
  .mapping [(.text "name", .text name), (.text "ping", .null)]

/-- A block with the name of the task in it. -/
def namedBlock : Value :=
  .mapping [(.text "name", .text "A"), (.text "block", .sequence [namedPing "A"])]

/-- A block without a name and without a `rescue` section. -/
def nestedGroup : Mapping :=
  [(.text "always", .sequence [namedPing "B"]),
   (.text "when", .text "late"),
   (.text "block", .sequence [namedBlock])]

/-- The names that `nestedGroup` and two tasks around it declare. -/
def nestedLines : NameLines :=
  NameLines.of "- name: A\n- name: A\n- name: A\n- name: B\n- name: A\n"

theorem collectTasks_group_nestedGroup :
    Groups nestedGroup [namedBlock] [] [namedPing "B"] ∧
      (collectTasks nestedLines 0
        ([namedPing "A"] ++ .mapping nestedGroup :: [namedPing "A"])).1.map (·.line)
          = [some 1, some 3, some 4, some 5] ∧
      collectTasks nestedLines 0 ([namedPing "A"] ++ .mapping nestedGroup :: [namedPing "A"])
        = collectTasks nestedLines 0
          ([namedPing "A"] ++ [namedBlock] ++ [] ++ [namedPing "B"] ++ [namedPing "A"]) := by
  have hgroups : Groups nestedGroup [namedBlock] [] [namedPing "B"] :=
    { unnamed := by decide +kernel
      block := .inl rfl
      rescue := .inr ⟨rfl, rfl⟩
      always := .inl rfl
      isBlock := ⟨"block", by decide, Option.some_ne_none _⟩ }
  exact ⟨hgroups, by decide +kernel, collectTasks_group _ 0 rfl hgroups _ _⟩

end PlaybookPolicy
