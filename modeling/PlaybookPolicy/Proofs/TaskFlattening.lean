import PlaybookPolicy.Proofs.LoadedFile

/-!
# Flattening loses and duplicates no task

The walk that collects the tasks of a file carries a line from task to task, and looks every name up
in the text of the file.  Here the tasks are listed a second time, from the document alone: a
document has *leaves*, the mappings that are no blocks, and its tasks are what its leaves write.
Both lists agree but for the lines.

## Main definitions

* `Task.unplaced` — a task without its line.
* `blockParts` — the sequences that make a mapping a block.
* `leavesOf` — the leaves below an item, depth first.
* `documentLeaves`, `documentTasks` — the leaves of a document, and the tasks that they write.

## Main results

* `unplaced_collectTasks` — the walk finds what the leaves of its items write.
* `PlaybookFile.unplaced_tasks_of_ofDocument` — so does loading a document.
* `PlaybookFile.unplaced_tasks_of_parse` — **the tasks of a file are those of its document.**
-/

namespace PlaybookPolicy

open Yaml (Value Mapping)

/-! ### Leaves -/

/-- The task without its line. -/
def Task.unplaced (t : Task) : Task :=
  { t with line := none }

/-- The task that a leaf writes, if it writes one. -/
def Task.ofLeaf? (m : Mapping) : Option Task :=
  (Task.ofMapping m).toOption

/-- The items under a key, if an untagged sequence stands there. -/
def sequenceAt? (m : Mapping) (key : String) : Option (List Value) :=
  match Mapping.get? m key with
  | some (.sequence items) => some items
  | _ => none

theorem sizeOf_lt_of_sequenceAt? {m : Mapping} {key : String} {items : List Value}
    (h : sequenceAt? m key = some items) : sizeOf items < sizeOf m := by
  unfold sequenceAt? at h
  split at h
  · next l hl =>
    cases h
    have hlt := sizeOf_lt_of_get? hl
    simp only [Value.sequence.sizeOf_spec] at hlt
    omega
  · cases h

/-- The sequences that make a mapping a block. -/
def blockParts (m : Mapping) : List (List Value) :=
  ["block", "rescue", "always"].filterMap (sequenceAt? m)

theorem sizeOf_lt_of_mem_blockParts {m : Mapping} {items : List Value}
    (h : items ∈ blockParts m) : sizeOf items < sizeOf m := by
  obtain ⟨key, -, hkey⟩ := List.mem_filterMap.mp h
  exact sizeOf_lt_of_sequenceAt? hkey

/-- The leaves below an item: a mapping that holds `block`, `rescue` or `always` as a sequence
stands for the leaves of these, in this order, and any other mapping for itself.  What is no mapping
has none. -/
def leavesOf (v : Value) : List Mapping :=
  match h : v.asMapping? with
  | none => []
  | some m =>
    if (blockParts m).isEmpty then [m]
    else
      (blockParts m).attach.flatMap fun ⟨items, hitems⟩ =>
        items.attach.flatMap fun ⟨w, hw⟩ =>
          have := List.sizeOf_lt_of_mem hw
          have := sizeOf_lt_of_mem_blockParts hitems
          have := sizeOf_lt_of_asMapping? h
          leavesOf w
termination_by sizeOf v
decreasing_by omega

theorem leavesOf_eq_nil {v : Value} (h : v.asMapping? = none) : leavesOf v = [] := by
  rw [leavesOf]
  split
  · rfl
  · next m hm => rw [h] at hm; cases hm

theorem leavesOf_eq_of_asMapping? {v : Value} {m : Mapping} (h : v.asMapping? = some m) :
    leavesOf v = if (blockParts m).isEmpty then [m]
      else (blockParts m).flatMap fun items => items.flatMap leavesOf := by
  rw [leavesOf]
  split
  · next hn => rw [h] at hn; cases hn
  · next m' hm =>
    rw [h] at hm
    cases hm
    simp only [List.flatMap_subtype, List.unattach_attach]

/-- The leaves of a document.  In a playbook they are those of `pre_tasks`, `tasks`, `post_tasks`
and `handlers` of every play that imports no other playbook; in a list of tasks or handlers those of
its items. -/
def documentLeaves (path : Path) (document : Value) : List Mapping :=
  match FileKind.ofDocument path document, document with
  | .playbook, .sequence items =>
    let plays := (items.filterMap Value.asMapping?).filter fun m =>
      !(Mapping.hasKey m "import_playbook" || Mapping.hasKey m "ansible.builtin.import_playbook")
    plays.flatMap fun play =>
      (["pre_tasks", "tasks", "post_tasks", "handlers"].filterMap (sequenceAt? play)).flatMap
        fun tasks => tasks.flatMap leavesOf
  | .tasks, .sequence items
  | .handlers, .sequence items => items.flatMap leavesOf
  | _, _ => []

/-- The tasks of a document: what its leaves write, in their order. -/
def documentTasks (path : Path) (document : Value) : List Task :=
  (documentLeaves path document).filterMap Task.ofLeaf?

/-! ### The walk -/

theorem Task.line_of_ofMapping {m : Mapping} {t : Task} (h : Task.ofMapping m = .ok t) :
    t.line = none := by
  unfold Task.ofMapping at h
  split at h
  · split at h
    · cases h; rfl
    · cases h
  · split at h
    · cases h; rfl
    · cases h

/-- A task that a mapping writes is the same whatever line it is given. -/
theorem Task.unplaced_of_ofMapping {m : Mapping} {t : Task} (h : Task.ofMapping m = .ok t)
    (line : Option Nat) : Task.unplaced { t with line } = t := by
  rw [Task.unplaced, ← Task.line_of_ofMapping h]

theorem sectionItems_eq (m : Mapping) (key : String) :
    sectionItems m key = (sequenceAt? m key).getD [] := by
  unfold sectionItems sequenceAt?
  rcases Mapping.get? m key with _ | v
  · rfl
  · cases v <;> rfl

/-- Going through the sections of a mapping by key, present or not, goes through those that are
there. -/
theorem flatMap_sectionItems {β : Type} (m : Mapping) (f : Value → List β) :
    ∀ keys : List String, keys.flatMap (fun key => (sectionItems m key).flatMap f)
      = (keys.filterMap (sequenceAt? m)).flatMap fun items => items.flatMap f := by
  intro keys
  induction keys with
  | nil => rfl
  | cons key keys ih =>
    rw [List.flatMap_cons, ih, sectionItems_eq, List.filterMap_cons]
    cases sequenceAt? m key <;> simp

/-- A mapping is a block if it has a part. -/
theorem isBlock_eq (m : Mapping) : isBlock m = !(blockParts m).isEmpty := by
  have hkey : ∀ key, (Mapping.get? m key).any isSequence = (sequenceAt? m key).isSome := by
    intro key
    unfold sequenceAt?
    rcases Mapping.get? m key with _ | v
    · rfl
    · cases v <;> rfl
  simp only [isBlock, blockSections, blockParts, List.any_cons, List.any_nil, Bool.or_false, hkey,
    List.filterMap_cons, List.filterMap_nil]
  cases sequenceAt? m "block" <;> cases sequenceAt? m "rescue" <;>
    cases sequenceAt? m "always" <;> rfl

mutual

theorem unplaced_collectItem (names : NameLines) (cursor : Nat) (v : Value) :
    (collectItem names cursor v).1.map Task.unplaced = (leavesOf v).filterMap Task.ofLeaf? := by
  rw [collectItem]
  split
  · next hn => rw [leavesOf_eq_nil hn]; rfl
  · next m hm =>
    have hlt := sizeOf_lt_of_asMapping? hm
    rw [leavesOf_eq_of_asMapping? hm]
    split
    -- a block stands for its sections, and any other mapping for the task that it writes, if any
    · next hb =>
      rw [isBlock_eq, Bool.not_eq_true'] at hb
      rw [if_neg (by simp [hb])]
      exact unplaced_collectBlock names _ m blockSections
    · next hb =>
      rw [isBlock_eq] at hb
      rw [if_pos (by simpa using hb)]
      cases ht : Task.ofMapping m with
      | error e => simp [Task.ofLeaf?, ht, Except.toOption]
      | ok t => simp [Task.ofLeaf?, ht, Except.toOption, Task.unplaced_of_ofMapping ht]
termination_by 8 * sizeOf v
decreasing_by
  simp only [blockSections, List.length_cons, List.length_nil]
  omega

theorem unplaced_collectBlock (names : NameLines) (cursor : Nat) (m : Mapping)
    (keys : List String) :
    (collectBlock names cursor m keys).1.map Task.unplaced
      = ((keys.filterMap (sequenceAt? m)).flatMap fun items =>
          items.flatMap leavesOf).filterMap Task.ofLeaf? := by
  cases keys with
  | nil => simp [collectBlock]
  | cons key keys =>
    rw [collectBlock, List.map_append, unplaced_collectTasks, unplaced_collectBlock,
      ← flatMap_sectionItems, ← flatMap_sectionItems, List.flatMap_cons, List.filterMap_append]
termination_by 8 * sizeOf m + keys.length + 1
decreasing_by
  · have hle := sizeOf_sectionItems_le m key
    omega
  · simp only [List.length_cons]
    omega

/-- **The walk finds what the leaves of its items write**, whatever names the lines of the file
declare and wherever the walk starts. -/
theorem unplaced_collectTasks (names : NameLines) (cursor : Nat) (items : List Value) :
    (collectTasks names cursor items).1.map Task.unplaced
      = (items.flatMap leavesOf).filterMap Task.ofLeaf? := by
  cases items with
  | nil => simp [collectTasks]
  | cons v l =>
    rw [collectTasks, List.flatMap_cons, List.filterMap_append, List.map_append,
      unplaced_collectItem, unplaced_collectTasks]
termination_by 8 * sizeOf items
decreasing_by
  all_goals
    simp only [List.cons.sizeOf_spec]
    omega

end

theorem unplaced_collectSections (names : NameLines) (start : Nat) (m : Mapping) :
    ∀ (keys : List String) (cursor : Nat),
      (collectSections names start m cursor keys).1.map Task.unplaced
        = ((keys.filterMap (sequenceAt? m)).flatMap fun items =>
            items.flatMap leavesOf).filterMap Task.ofLeaf? := by
  intro keys
  induction keys with
  | nil => intro cursor; rfl
  | cons key keys ih =>
    intro cursor
    rw [collectSections, List.map_append, unplaced_collectTasks, ih, ← flatMap_sectionItems,
      ← flatMap_sectionItems, List.flatMap_cons, List.filterMap_append]

/-! ### Plays -/

theorem unplaced_collectPlays {names : NameLines} {path : Path} :
    ∀ {l : List Mapping} {cursor : Nat} {plays : List Play} {tasks : List Task},
      collectPlays names path cursor l = .ok (plays, tasks) →
        tasks.map Task.unplaced
          = (l.flatMap fun play => (playSections.filterMap (sequenceAt? play)).flatMap fun items =>
              items.flatMap leavesOf).filterMap Task.ofLeaf? := by
  intro l
  induction l with
  | nil =>
    intro cursor plays tasks h
    cases h
    rfl
  | cons m l ih =>
    intro cursor plays tasks h
    obtain ⟨play, -, line, -, found, rfl, rest, more, hrest, -, rfl⟩ :=
      collectPlays_cons_eq_ok_iff.mp h
    rw [List.flatMap_cons, List.filterMap_append, List.map_append, unplaced_collectSections,
      ih hrest]

/-! ### Files -/

namespace PlaybookFile

theorem unplaced_tasks_of_ofDocument {path : Path} {names : NameLines} {document : Value}
    {f : PlaybookFile} (h : ofDocument path names document = .ok f) :
    f.tasks.map Task.unplaced = documentTasks path document := by
  obtain ⟨-, hkind, hcases⟩ := cases_of_ofDocument h
  unfold documentTasks documentLeaves
  rw [← hkind]
  obtain ⟨hk, items, rfl, hplays⟩ | ⟨hk, items, rfl, -, htasks⟩ | ⟨hk, -, htasks⟩ := hcases
  · rw [hk]
    exact unplaced_collectPlays hplays
  · rw [htasks, unplaced_collectTasks]
    rcases hk with hk | hk <;> rw [hk]
  · rw [htasks, hk]
    rfl

/-- **The tasks of a file are those of its document.**  A file that loads has a document, and its
tasks are what the leaves of that document write, in their order: none is lost and none is there
twice.  The text of the file only gives them their lines, since the same tasks are found for
whatever names the lines may declare. -/
theorem unplaced_tasks_of_parse {path : Path} {content : String} {f : PlaybookFile}
    (h : parse path content = .ok f) :
    ∃ document, readDocument path content = .ok document ∧
      f.kind = FileKind.ofDocument path document ∧
      f.tasks.map Task.unplaced = documentTasks path document ∧
      ∀ names : NameLines, ∃ f', ofDocument path names document = .ok f' ∧
        f'.tasks.map Task.unplaced = documentTasks path document := by
  obtain ⟨document, hread, hdoc⟩ := parse_eq_ok_iff.mp h
  have hloads := (exists_ofDocument_iff path (NameLines.of content) document).mp ⟨f, hdoc⟩
  refine ⟨document, hread, (cases_of_ofDocument hdoc).2.1, unplaced_tasks_of_ofDocument hdoc, ?_⟩
  intro names
  obtain ⟨f', hf'⟩ := (exists_ofDocument_iff path names document).mpr hloads
  exact ⟨f', hf', unplaced_tasks_of_ofDocument hf'⟩

/-- A playbook with its sections and those of its block out of order, and a block item without a
module. -/
def shuffledSite : String :=
  "- hosts: all\n" ++
  "  handlers:\n" ++
  "    - name: Restart\n" ++
  "      service: x\n" ++
  "  tasks:\n" ++
  "    - rescue:\n" ++
  "        - debug: y\n" ++
  "      block:\n" ++
  "        - command: ls\n" ++
  "        - name: Nothing\n" ++
  "        - 7\n" ++
  "    - shell: pwd\n"

theorem unplaced_tasks_of_shuffledSite :
    ∃ f, parse (Path.ofText "site.yml") shuffledSite = .ok f ∧
      f.tasks.map (·.moduleName) = ["command", "debug", "shell", "service"] ∧
      ∃ document, readDocument (Path.ofText "site.yml") shuffledSite = .ok document ∧
        f.kind = FileKind.ofDocument (Path.ofText "site.yml") document ∧
        f.tasks.map Task.unplaced = documentTasks (Path.ofText "site.yml") document ∧
        ∀ names : NameLines, ∃ f', ofDocument (Path.ofText "site.yml") names document = .ok f' ∧
          f'.tasks.map Task.unplaced = documentTasks (Path.ofText "site.yml") document := by
  have hmodules : ((parse (Path.ofText "site.yml") shuffledSite).toOption.map fun f =>
      f.tasks.map (·.moduleName)) = some ["command", "debug", "shell", "service"] := by
    decide +kernel
  cases hf : parse (Path.ofText "site.yml") shuffledSite with
  | error e => rw [hf] at hmodules; cases hmodules
  | ok f =>
    rw [hf] at hmodules
    exact ⟨f, rfl, Option.some.inj hmodules, unplaced_tasks_of_parse hf⟩

end PlaybookFile

end PlaybookPolicy
