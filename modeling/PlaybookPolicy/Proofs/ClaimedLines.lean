import PlaybookPolicy.Proofs.TaskWalk

/-!
# The lines that tasks claim

A walk that collects tasks claims a line for each task whose name it finds, and looks for the next
name below that line.  So no line is claimed twice on one walk.  The sections of a play are walked
one by one from the line of the play, since they may stand in the text in any order; there a line is
claimed a second time if a later section holds a task with the name of a task of an earlier one.

## Main definitions

* `TaskClaims` — what a walk from a line claims: lines below it, in increasing order, that declare
  the names of their tasks.
* `TaskPlace`, `documentPlacedTasks` — the section of a play that a task comes from, and the tasks
  of a document with their places.
* `KeepApart` — two tasks claim different lines, or stand in two sections of one play and bear the
  same name.

## Main results

* `taskClaims_collectTasks` — **a walk claims no line twice.**
* `PlaybookFile.keepApart_of_parse` — **the tasks of a file keep apart.**
-/

namespace PlaybookPolicy

open Yaml (Value Mapping)

/-! ### Lines that are found -/

namespace NameLines

/-- A line that is found comes after the given one and declares the name. -/
theorem spec_of_locate? {names : NameLines} {name : String} {after line : Nat}
    (h : names.locate? name after = some line) :
    after < line ∧ names[line - 1]? = some (some name) := by
  unfold locate? at h
  obtain ⟨i, hi, rfl⟩ := Option.map_eq_some_iff.mp h
  obtain ⟨hlt, hname, -⟩ := List.findIdx?_eq_some_iff_getElem.mp hi
  rw [List.getElem_drop, beq_iff_eq] at hname
  rw [List.length_drop] at hlt
  refine ⟨by omega, ?_⟩
  rw [Nat.add_sub_cancel, List.getElem?_eq_getElem (by omega), hname]

theorem spec_of_locateName? {names : NameLines} {name? : Option String} {after line : Nat}
    (h : names.locateName? name? after = some line) :
    after < line ∧ name?.isSome ∧ names[line - 1]? = some name? := by
  obtain ⟨name, rfl, hname⟩ := Option.bind_eq_some_iff.mp h
  exact ⟨(spec_of_locate? hname).1, rfl, (spec_of_locate? hname).2⟩

/-- Going on from a name, found or not, never goes back. -/
theorem le_getD_locateName? (names : NameLines) (name? : Option String) (cursor : Nat) :
    cursor ≤ (names.locateName? name? cursor).getD cursor := by
  cases h : names.locateName? name? cursor with
  | none => exact Nat.le_refl _
  | some line => exact Nat.le_of_lt (spec_of_locateName? h).1

end NameLines

/-! ### What a walk claims -/

/-- What a walk from line `cursor` claims, if it finds the tasks `r.1` and ends at line `r.2`. -/
structure TaskClaims (names : NameLines) (cursor : Nat) (r : List Task × Nat) : Prop where
  /-- The walk goes down the text. -/
  le_last : cursor ≤ r.2
  /-- A claimed line is one that the walk has gone over. -/
  between : ∀ t ∈ r.1, ∀ l, t.line = some l → cursor < l ∧ l ≤ r.2
  /-- A claimed line declares the name of its task, which thus has one. -/
  declared : ∀ t ∈ r.1, ∀ l, t.line = some l → t.name.isSome ∧ names[l - 1]? = some t.name
  /-- A task claims a line below those of the tasks before it. -/
  increasing : r.1.Pairwise fun t u => ∀ l k, t.line = some l → u.line = some k → l < k

namespace TaskClaims

variable {names : NameLines} {cursor start : Nat} {r s : List Task × Nat}

theorem nil (names : NameLines) (cursor : Nat) : TaskClaims names cursor ([], cursor) where
  le_last := Nat.le_refl _
  between := by simp
  declared := by simp
  increasing := .nil

/-- One task claims the line that declares its name, if there is one below the cursor. -/
theorem single (names : NameLines) (cursor : Nat) (t : Task) :
    TaskClaims names cursor
      ([{ t with line := names.locateName? t.name cursor }],
        (names.locateName? t.name cursor).getD cursor) where
  le_last := NameLines.le_getD_locateName? names t.name cursor
  between := by
    intro u hu l hl
    rw [List.mem_singleton.mp hu] at hl
    have hl : names.locateName? t.name cursor = some l := hl
    rw [hl]
    exact ⟨(NameLines.spec_of_locateName? hl).1, Nat.le_refl _⟩
  declared := by
    intro u hu l hl
    rw [List.mem_singleton.mp hu] at hl ⊢
    exact (NameLines.spec_of_locateName? hl).2
  increasing := List.pairwise_singleton _ _

/-- Claims below a line are claims below any line above it. -/
theorem of_le (h : TaskClaims names start r) (hle : cursor ≤ start) :
    TaskClaims names cursor r where
  le_last := Nat.le_trans hle h.le_last
  between := by
    intro t ht l hl
    have hbetween := h.between t ht l hl
    omega
  declared := h.declared
  increasing := h.increasing

/-- A walk that goes on where another has ended claims what both claim. -/
theorem append (h : TaskClaims names cursor r) (h' : TaskClaims names r.2 s) :
    TaskClaims names cursor (r.1 ++ s.1, s.2) where
  le_last := Nat.le_trans h.le_last h'.le_last
  between := by
    intro t ht l hl
    have hle := h.le_last
    have hle' := h'.le_last
    rcases List.mem_append.mp ht with ht | ht
    · have hbetween := h.between t ht l hl
      dsimp only
      omega
    · have hbetween := h'.between t ht l hl
      dsimp only
      omega
  declared := by
    intro t ht
    rcases List.mem_append.mp ht with ht | ht
    · exact h.declared t ht
    · exact h'.declared t ht
  increasing := by
    refine List.pairwise_append.mpr ⟨h.increasing, h'.increasing, ?_⟩
    intro t ht u hu l k hl hk
    -- the first walk claims nothing below `r.2`, and the second nothing above it
    have hleft := h.between t ht l hl
    have hright := h'.between u hu k hk
    omega

/-- Two tasks with one line bear one name. -/
theorem name_eq (h : TaskClaims names cursor r) (h' : TaskClaims names start s) {t u : Task}
    (ht : t ∈ r.1) (hu : u ∈ s.1) {l : Nat} (hl : t.line = some l) (hl' : u.line = some l) :
    t.name = u.name := by
  have hname := (h.declared t ht l hl).2
  rw [(h'.declared u hu l hl').2] at hname
  exact (Option.some.inj hname).symm

end TaskClaims

/-- One visit claims the line of its task, if it is to a task and a line is found. -/
theorem taskClaims_visit (names : NameLines) (cursor : Nat) (v : Visit) :
    TaskClaims names cursor (gatherTasks names cursor [v]) := by
  rw [gatherTasks_singleton]
  cases v with
  -- the name of a block moves the cursor, and no task claims its line
  | block name =>
    exact (TaskClaims.nil names _).of_le (NameLines.le_getD_locateName? names name cursor)
  | task t => exact .single names cursor t
  | skipped name => exact .nil names cursor

theorem taskClaims_gatherTasks (names : NameLines) :
    ∀ (l : List Visit) (cursor : Nat), TaskClaims names cursor (gatherTasks names cursor l) := by
  intro l
  induction l with
  | nil => intro cursor; exact .nil names cursor
  | cons v l ih =>
    intro cursor
    rw [← List.singleton_append, gatherTasks_append]
    exact (taskClaims_visit names cursor v).append (ih _)

/-- **A walk claims no line twice**, however deep its blocks are nested and whatever names repeat:
each claimed line is below all those claimed before. -/
theorem taskClaims_collectTasks (names : NameLines) (cursor : Nat) (items : List Value) :
    TaskClaims names cursor (collectTasks names cursor items) := by
  rw [collectTasks_eq]
  exact taskClaims_gatherTasks names _ cursor

/-! ### The places of tasks -/

/-- The place that a task of a file comes from. -/
inductive TaskPlace
  /-- A list of tasks or handlers, which the document is. -/
  | topLevel
  /-- A section of the play with the given index. -/
  | inPlay (index : Nat) (key : String)
  deriving DecidableEq

/-- The tasks that the leaves of a list of items write. -/
def leafTasks (items : List Value) : List Task :=
  (items.flatMap leavesOf).filterMap Task.ofLeaf?

/-- The tasks that the sections of a play write, each with its section. -/
def playPlacedTasks (index : Nat) (play : Mapping) : List (TaskPlace × Task) :=
  playSections.flatMap fun key =>
    (leafTasks (sectionItems play key)).map (TaskPlace.inPlay index key, ·)

/-- The tasks of a document with their places, told from the document alone. -/
def documentPlacedTasks (path : Path) (document : Value) : List (TaskPlace × Task) :=
  match FileKind.ofDocument path document, document with
  | .playbook, .sequence items =>
    (PlaybookFile.playMappings items).zipIdx.flatMap fun (play, index) =>
      playPlacedTasks index play
  | .tasks, .sequence items
  | .handlers, .sequence items => (leafTasks items).map (TaskPlace.topLevel, ·)
  | _, _ => []

/-- Two tasks claim different lines, unless they come from two sections of one play and bear the
same name. -/
def KeepApart (a b : TaskPlace × Task) : Prop :=
  ∀ l, a.2.line = some l → b.2.line = some l →
    a.2.name = b.2.name ∧
      ∃ index key key', a.1 = .inPlay index key ∧ b.1 = .inPlay index key' ∧ key ≠ key'

/-- The tasks of one walk keep apart, wherever they come from. -/
theorem TaskClaims.keepApart {names : NameLines} {cursor : Nat} {r : List Task × Nat}
    (h : TaskClaims names cursor r) (place : TaskPlace) :
    (r.1.map (place, ·)).Pairwise KeepApart := by
  rw [List.pairwise_map]
  refine h.increasing.imp ?_
  intro t u hlt l hl hl'
  exact absurd (hlt l l hl hl') (Nat.lt_irrefl l)

theorem snd_map_placed (place : TaskPlace) (tasks : List Task) :
    (tasks.map (place, ·)).map Prod.snd = tasks := by
  rw [List.map_map]
  exact List.map_id tasks

theorem unplaced_map_collectTasks (names : NameLines) (cursor : Nat) (items : List Value)
    (place : TaskPlace) :
    ((collectTasks names cursor items).1.map (place, ·)).map (Prod.map id Task.unplaced)
      = (leafTasks items).map (place, ·) := by
  rw [leafTasks, ← unplaced_collectTasks names cursor items, List.map_map, List.map_map]
  rfl

/-! ### The sections of a play -/

/-- The tasks of the sections of the play with the given index, each section walked from line
`start`. -/
def placedSections (names : NameLines) (start : Nat) (m : Mapping) (index : Nat)
    (keys : List String) : List (TaskPlace × Task) :=
  keys.flatMap fun key =>
    (collectTasks names start (sectionItems m key)).1.map (TaskPlace.inPlay index key, ·)

section PlacedSections

variable {names : NameLines} {start : Nat} {m : Mapping} {index : Nat}

theorem snd_placedSections : ∀ (keys : List String) (cursor : Nat),
    (placedSections names start m index keys).map Prod.snd
      = (collectSections names start m cursor keys).1 := by
  intro keys
  induction keys with
  | nil => intro cursor; rfl
  | cons key keys ih =>
    intro cursor
    rw [placedSections, List.flatMap_cons, List.map_append, snd_map_placed]
    exact congrArg (_ ++ ·) (ih _)

theorem unplaced_placedSections :
    (placedSections names start m index playSections).map (Prod.map id Task.unplaced)
      = playPlacedTasks index m := by
  rw [placedSections, List.map_flatMap, playPlacedTasks]
  simp only [unplaced_map_collectTasks]

/-- The line at which the sections end is not above the one at which any of them ends. -/
theorem le_snd_collectSections (names : NameLines) (start : Nat) (m : Mapping) :
    ∀ (keys : List String) (cursor : Nat), cursor ≤ (collectSections names start m cursor keys).2 ∧
      ∀ key ∈ keys, (collectTasks names start (sectionItems m key)).2
        ≤ (collectSections names start m cursor keys).2 := by
  intro keys
  induction keys with
  | nil => intro cursor; exact ⟨Nat.le_refl _, by simp⟩
  | cons key keys ih =>
    intro cursor
    rw [collectSections, List.forall_mem_cons]
    obtain ⟨hcursor, hkeys⟩ :=
      ih (max cursor (collectTasks names start (sectionItems m key)).2)
    dsimp only
    exact ⟨by omega, by omega, hkeys⟩

theorem between_of_mem_placedSections {keys : List String} (cursor : Nat)
    {a : TaskPlace × Task} (ha : a ∈ placedSections names start m index keys) {l : Nat}
    (hl : a.2.line = some l) :
    start < l ∧ l ≤ (collectSections names start m cursor keys).2 := by
  obtain ⟨key, hkey, ha⟩ := List.mem_flatMap.mp ha
  obtain ⟨t, ht, rfl⟩ := List.mem_map.mp ha
  have hbetween := (taskClaims_collectTasks names start _).between t ht l hl
  have hle := (le_snd_collectSections names start m keys cursor).2 key hkey
  omega

/-- Tasks of different sections may claim one line, but only if they bear the name that it
declares. -/
theorem keepApart_placedSections {keys : List String} (hkeys : keys.Nodup) :
    (placedSections names start m index keys).Pairwise KeepApart := by
  rw [placedSections, List.pairwise_flatMap]
  constructor
  · intro key _
    exact (taskClaims_collectTasks names start _).keepApart _
  -- two sections may meet at a line, as both are walked from the line of the play; what they share
  -- is then the name that this line declares
  · refine hkeys.imp ?_
    intro key key' hne a ha b hb l hl hl'
    obtain ⟨t, ht, rfl⟩ := List.mem_map.mp ha
    obtain ⟨u, hu, rfl⟩ := List.mem_map.mp hb
    exact ⟨(taskClaims_collectTasks names start _).name_eq (taskClaims_collectTasks names start _)
      ht hu hl hl', index, key, key', rfl, rfl, hne⟩

end PlacedSections

/-! ### Plays -/

/-- The tasks of the plays of a playbook claim lines below the cursor and keep apart: what a play
claims is below all that the plays before it have claimed. -/
theorem exists_placed_of_collectPlays {names : NameLines} {path : Path} :
    ∀ {l : List Mapping} {cursor : Nat} {plays : List Play} {tasks : List Task} (n : Nat),
      collectPlays names path cursor l = .ok (plays, tasks) →
        ∃ placed : List (TaskPlace × Task), placed.map Prod.snd = tasks ∧
          placed.map (Prod.map id Task.unplaced)
            = (l.zipIdx n).flatMap (fun (play, index) => playPlacedTasks index play) ∧
          (∀ a ∈ placed, ∀ k, a.2.line = some k → cursor < k) ∧
          placed.Pairwise KeepApart := by
  intro l
  induction l with
  | nil =>
    intro cursor plays tasks n h
    cases h
    exact ⟨[], rfl, rfl, by simp, .nil⟩
  | cons m l ih =>
    intro cursor plays tasks n h
    obtain ⟨play, -, line, hline, found, rfl, rest, more, hrest, -, rfl⟩ :=
      collectPlays_cons_eq_ok_iff.mp h
    -- the plays behind this one are walked from the last line of its sections
    obtain ⟨placed, hsnd, hunplaced, hbelow, hapart⟩ := ih (n + 1) hrest
    have hstart : cursor ≤ line.getD cursor := by
      rw [hline]
      exact NameLines.le_getD_locateName? names _ cursor
    have hend := (le_snd_collectSections names (line.getD cursor) m playSections
      (line.getD cursor)).1
    refine ⟨placedSections names (line.getD cursor) m n playSections ++ placed, ?_, ?_, ?_, ?_⟩
    · rw [List.map_append, hsnd, snd_placedSections]
    · rw [List.map_append, hunplaced, unplaced_placedSections, List.zipIdx_cons,
        List.flatMap_cons]
    · intro a ha k hk
      rcases List.mem_append.mp ha with ha | ha
      · have hbetween := between_of_mem_placedSections (line.getD cursor) ha hk
        omega
      · have hlt := hbelow a ha k hk
        omega
    · refine List.pairwise_append.mpr ⟨keepApart_placedSections (by decide), hapart, ?_⟩
      intro a ha b hb k hk hk'
      have hbetween := between_of_mem_placedSections (line.getD cursor) ha hk
      have hlt := hbelow b hb k hk'
      omega

/-! ### Files -/

namespace PlaybookFile

/-- **The tasks of a file keep apart.**  In a file that loads, two tasks with one line come from two
sections of one play and bear the same name; so all lines of a list of tasks or handlers are
different, and so are those of different plays and those within one section. -/
theorem keepApart_of_parse {path : Path} {content : String} {f : PlaybookFile}
    (h : parse path content = .ok f) :
    ∃ document, readDocument path content = .ok document ∧
      ∃ placed : List (TaskPlace × Task), placed.map Prod.snd = f.tasks ∧
        placed.map (Prod.map id Task.unplaced) = documentPlacedTasks path document ∧
        placed.Pairwise KeepApart := by
  obtain ⟨document, hread, hdoc⟩ := parse_eq_ok_iff.mp h
  obtain ⟨-, hkind, hcases⟩ := cases_of_ofDocument hdoc
  refine ⟨document, hread, ?_⟩
  unfold documentPlacedTasks
  rw [← hkind]
  obtain ⟨hk, items, rfl, hplays⟩ | ⟨hk, items, rfl, -, htasks⟩ | ⟨hk, -, htasks⟩ := hcases
  · obtain ⟨placed, hsnd, hunplaced, -, hapart⟩ := exists_placed_of_collectPlays 0 hplays
    rw [hk]
    exact ⟨placed, hsnd, hunplaced, hapart⟩
  · have hclaims := taskClaims_collectTasks (NameLines.of content) 0 items
    refine ⟨f.tasks.map (TaskPlace.topLevel, ·), snd_map_placed .topLevel f.tasks, ?_, ?_⟩
    · rw [htasks, unplaced_map_collectTasks]
      rcases hk with hk | hk <;> rw [hk]
    · rw [htasks]
      exact hclaims.keepApart .topLevel
  · rw [hk]
    exact ⟨[], htasks.symm, rfl, .nil⟩

/-- A play whose tasks and handlers all bear one name. -/
def repeatedNames : String :=
  "- hosts: all\n" ++
  "  handlers:\n" ++
  "  - name: A\n" ++
  "    ping:\n" ++
  "  tasks:\n" ++
  "  - name: A\n" ++
  "    ping:\n" ++
  "  - name: A\n" ++
  "    ping:\n"

theorem keepApart_of_parse_repeatedNames :
    ∃ f, parse (Path.ofText "site.yml") repeatedNames = .ok f ∧
      f.tasks.map (·.line) = [some 3, some 6, some 3] ∧
      ∃ document, readDocument (Path.ofText "site.yml") repeatedNames = .ok document ∧
        ∃ placed : List (TaskPlace × Task), placed.map Prod.snd = f.tasks ∧
          placed.map (Prod.map id Task.unplaced)
            = documentPlacedTasks (Path.ofText "site.yml") document ∧
          placed.Pairwise KeepApart := by
  have hlines : ((parse (Path.ofText "site.yml") repeatedNames).toOption.map fun f =>
      f.tasks.map (·.line)) = some [some 3, some 6, some 3] := by
    decide +kernel
  cases hf : parse (Path.ofText "site.yml") repeatedNames with
  | error e => rw [hf] at hlines; cases hlines
  | ok f =>
    rw [hf] at hlines
    exact ⟨f, rfl, Option.some.inj hlines, keepApart_of_parse hf⟩

/-- A play with a task of one name in two of its sections. -/
def deployTwice : String :=
  "- hosts: all\n" ++
  "  pre_tasks:\n" ++
  "    - name: Deploy\n" ++
  "      ping:\n" ++
  "  tasks:\n" ++
  "    - name: Deploy\n" ++
  "      ping:\n"

/-- Tasks of two sections can claim one line, since each section is walked from the line of the
play. -/
theorem tasks_of_deployTwice_shareLine :
    ¬ ∀ (path : Path) (content : String) (f : PlaybookFile), parse path content = .ok f →
      f.tasks.Pairwise fun t u => ∀ l, t.line = some l → u.line ≠ some l := by
  intro h
  have hlines : ((parse (Path.ofText "site.yml") deployTwice).toOption.map fun f =>
      f.tasks.map (·.line)) = some [some 3, some 3] := by
    decide +kernel
  cases hf : parse (Path.ofText "site.yml") deployTwice with
  | error e => rw [hf] at hlines; cases hlines
  | ok f =>
    rw [hf] at hlines
    have hlines : f.tasks.map (·.line) = [some 3, some 3] := Option.some.inj hlines
    have hapart : (f.tasks.map (·.line)).Pairwise fun a b => ∀ l, a = some l → b ≠ some l :=
      List.pairwise_map.mpr (h _ _ f hf)
    rw [hlines] at hapart
    exact (List.pairwise_cons.mp hapart).1 (some 3) (List.mem_singleton.mpr rfl) 3 rfl rfl

end PlaybookFile

end PlaybookPolicy
