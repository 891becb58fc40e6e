import PlaybookPolicy.Proofs.DeclaredNames

/-!
# Tasks at their own lines

Take a list of tasks whose text declares the names of its mappings, and no others, in the order in
which the walk meets them.  Then the first declaration is that of the first mapping with a name, and
so on, and each mapping has a line of its own.  The walk finds it for every task, however often
names repeat, as long as every mapping claims its line.  A mapping without a module claims none: the
walk passes over it, and a later task of the same name may be found where that mapping stands.

## Main definitions

* `NameLines.declarations` — the lines that declare names.
* `DeclaresInOrder`, `ownLine?` — a text declares the names of items in their order; the line of
  its own that an item then has.
* `KeepsUp` — how far a walk is, between the declarations behind it and those ahead.

## Main results

* `KeepsUp.locate?` — a name is found at its own line, or above it where it was passed over.
* `KeepsUp.run` — a walk keeps up with the declarations.
* `PlaybookFile.ownLine_of_readDocument` — **a task is found at its own line, unless its name was
  passed over.**
* `PlaybookFile.not_ownLine_of_passedOver` — else it may be found at another one.
-/

namespace PlaybookPolicy

open Yaml (Value Mapping)

/-! ### Declarations -/

/-- The lines that declare names, counted from one, with the names. -/
def NameLines.declarations (names : NameLines) : List (Nat × String) :=
  (names.zipIdx 1).filterMap fun (name?, line) => name?.map fun name => (line, name)

theorem NameLines.mem_declarations_iff {names : NameLines} {line : Nat} {name : String} :
    (line, name) ∈ names.declarations ↔ 0 < line ∧ names[line - 1]? = some (some name) := by
  rw [declarations, List.mem_filterMap]
  constructor
  · rintro ⟨⟨name?, k⟩, hmem, hmap⟩
    obtain ⟨name', rfl, heq⟩ := Option.map_eq_some_iff.mp hmap
    cases heq
    exact List.mk_mem_zipIdx_iff_le_and_getElem?_sub.mp hmem
  · intro h
    exact ⟨(some name, line), List.mk_mem_zipIdx_iff_le_and_getElem?_sub.mpr h, rfl⟩

theorem NameLines.pairwise_declarations (names : NameLines) :
    names.declarations.Pairwise fun d e => d.1 < e.1 := by
  have hlines : (names.zipIdx 1).Pairwise fun p q => p.2 < q.2 := by
    rw [← List.pairwise_map, List.zipIdx_map_snd]
    exact List.pairwise_lt_range'
  rw [declarations, List.pairwise_filterMap]
  refine hlines.imp ?_
  rintro ⟨name?, k⟩ ⟨name?', k'⟩ hlt d hd e he
  obtain ⟨name, -, rfl⟩ := Option.map_eq_some_iff.mp hd
  obtain ⟨name', -, rfl⟩ := Option.map_eq_some_iff.mp he
  exact hlt

/-- Declarations stand below those before them. -/
theorem NameLines.lt_of_declarations {names : NameLines} {past next : List (Nat × String)}
    {own : Nat} {name : String} (hsplit : names.declarations = past ++ (own, name) :: next) :
    ∀ d ∈ next, own < d.1 := by
  have hsorted := names.pairwise_declarations
  rw [hsplit] at hsorted
  exact (List.pairwise_cons.mp (List.pairwise_append.mp hsorted).2.1).1

/-- The declarations of the text are, in their order, the names of the mappings that a walk through
the items meets. -/
def DeclaresInOrder (content : String) (items : List Value) : Prop :=
  (NameLines.of content).declarations.map Prod.snd
    = (items.flatMap visitsOf).filterMap Visit.name

/-- The line of its own that a visit with a name has, if `before` are the visits before it: as many
declarations come before its own as there are names. -/
def ownLine? (names : NameLines) (before : List Visit) : Option Nat :=
  (names.declarations[(before.filterMap Visit.name).length]?).map Prod.fst

/-! ### Keeping up -/

/-- A walk that has seen some visits and is at line `cursor` stands above all declarations to come.
It is past each declaration behind it whose name it has not passed over. -/
structure KeepsUp (seen : List Visit) (cursor : Nat) (past next : List (Nat × String)) : Prop where
  /-- The declarations to come are further down. -/
  ahead : ∀ d ∈ next, cursor < d.1
  /-- Those behind are not, but for names that were passed over. -/
  passed : ∀ d ∈ past, Visit.skipped (some d.2) ∉ seen → d.1 ≤ cursor

namespace KeepsUp

variable {names : NameLines} {seen : List Visit} {cursor own : Nat} {name : String}
  {past next : List (Nat × String)}

theorem start (names : NameLines) : KeepsUp [] 0 [] names.declarations where
  ahead := by
    rintro ⟨line, name⟩ hd
    exact (NameLines.mem_declarations_iff.mp hd).1
  passed := by simp

/-- **A name is found at its own line, or above it where it was passed over.** -/
theorem locate? (h : KeepsUp seen cursor past ((own, name) :: next))
    (hsplit : names.declarations = past ++ (own, name) :: next) :
    ∃ line, names.locate? name cursor = some line ∧ cursor < line ∧ line ≤ own ∧
      (Visit.skipped (some name) ∉ seen → line = own) := by
  have hmem : (own, name) ∈ names.declarations := by
    rw [hsplit]
    exact List.mem_append_right past List.mem_cons_self
  have hown := (NameLines.mem_declarations_iff.mp hmem).2
  have hahead : cursor < own := h.ahead _ List.mem_cons_self
  cases hline : names.locate? name cursor with
  -- the own line is further down, so something is found
  | none => exact absurd hown (NameLines.of_locate?_eq_none hline own hahead)
  | some line =>
    obtain ⟨hlt, hname⟩ := NameLines.spec_of_locate? hline
    have hle : line ≤ own := by
      by_contra hgt
      exact NameLines.first_of_locate? hline own hahead (by omega) hown
    refine ⟨line, rfl, hlt, hle, ?_⟩
    intro hseen
    -- the line that is found declares the name too: it is one behind the walk, or the own one
    have hfound : (line, name) ∈ names.declarations :=
      NameLines.mem_declarations_iff.mpr ⟨by omega, hname⟩
    rw [hsplit] at hfound
    rcases List.mem_append.mp hfound with hpast | hnext
    · have hpassed := h.passed _ hpast hseen
      dsimp only at hpassed
      omega
    · rcases List.mem_cons.mp hnext with heq | hnext
      · cases heq
        rfl
      · have hbelow := NameLines.lt_of_declarations hsplit _ hnext
        dsimp only at hbelow
        omega

/-- A visit without a name changes nothing. -/
theorem step_unnamed (h : KeepsUp seen cursor past next) {v : Visit} (hv : v.name = none) :
    KeepsUp (seen ++ [v]) ((v.line? names cursor).getD cursor) past next := by
  have hline : v.line? names cursor = none := by
    cases v with
    | block n => cases hv; rfl
    | task t => rw [Visit.line?, Visit.wanted, ← Visit.name, hv]; rfl
    | skipped n => rfl
  rw [hline]
  exact
    { ahead := h.ahead
      passed := fun d hd hseen => h.passed d hd fun hmem =>
        hseen (List.mem_append_left [v] hmem) }

/-- A visit with a name leaves its declaration behind. -/
theorem step_named (h : KeepsUp seen cursor past ((own, name) :: next))
    (hsplit : names.declarations = past ++ (own, name) :: next) {v : Visit}
    (hv : v.name = some name) :
    KeepsUp (seen ++ [v]) ((v.line? names cursor).getD cursor) (past ++ [(own, name)]) next := by
  have hunseen : ∀ w, w ∉ seen ++ [v] → w ∉ seen := fun w hw hmem =>
    hw (List.mem_append_left [v] hmem)
  obtain ⟨line, hline, hlt, hle, hexact⟩ := h.locate? hsplit
  by_cases hwanted : v.wanted = some name
  · -- a block or a task goes on from the line that is found for it
    rw [Visit.line?_of_wanted hwanted, hline, Option.getD_some]
    constructor
    · intro d hd
      have hbelow := NameLines.lt_of_declarations hsplit d hd
      omega
    · intro d hd hseen
      rcases List.mem_append.mp hd with hd | hd
      · have hpassed := h.passed d hd (hunseen _ hseen)
        omega
      · cases List.mem_singleton.mp hd
        exact Nat.le_of_eq (hexact (hunseen _ hseen)).symm
  · -- any other visit with a name is passed over
    have hskipped : v = .skipped (some name) := by
      cases v with
      | block n => exact absurd hv hwanted
      | task t => exact absurd hv hwanted
      | skipped n => cases hv; rfl
    rw [hskipped]
    constructor
    · intro d hd
      exact h.ahead d (List.mem_cons_of_mem _ hd)
    · intro d hd hseen
      rcases List.mem_append.mp hd with hd | hd
      · exact h.passed d hd fun hmem => hseen (List.mem_append_left _ hmem)
      · cases List.mem_singleton.mp hd
        exact absurd (List.mem_append_right seen (List.mem_singleton.mpr rfl)) hseen

/-- **A walk keeps up with the declarations** of the names that it meets. -/
theorem run {rest : List String} :
    ∀ (l : List Visit) {seen : List Visit} {cursor : Nat} {past next : List (Nat × String)},
      names.declarations = past ++ next →
        next.map Prod.snd = l.filterMap Visit.name ++ rest →
        KeepsUp seen cursor past next →
        ∃ past' next', names.declarations = past' ++ next' ∧
          past'.length = past.length + (l.filterMap Visit.name).length ∧
          next'.map Prod.snd = rest ∧
          KeepsUp (seen ++ l) (lastLine cursor (locateVisits names cursor l)) past' next' := by
  intro l
  induction l with
  | nil =>
    intro seen cursor past next hsplit hnext h
    refine ⟨past, next, hsplit, rfl, hnext, ?_⟩
    rw [List.append_nil]
    exact h
  | cons v l ih =>
    intro seen cursor past next hsplit hnext h
    rw [locateVisits, lastLine_cons]
    cases hv : v.name with
    | none =>
      rw [List.filterMap_cons_none hv] at hnext ⊢
      obtain ⟨past', next', hsplit', hlength, hrest, hkeeps⟩ :=
        ih hsplit hnext (h.step_unnamed hv)
      rw [List.append_assoc] at hkeeps
      exact ⟨past', next', hsplit', hlength, hrest, hkeeps⟩
    | some name =>
      rw [List.filterMap_cons_some hv] at hnext ⊢
      -- the first declaration to come is the one of this visit, and is behind the walk after it
      obtain ⟨⟨own, name'⟩, next, rfl, rfl, htail⟩ := List.map_eq_cons_iff.mp hnext
      have hstep := h.step_named hsplit hv
      rw [List.append_cons] at hsplit
      obtain ⟨past', next', hsplit', hlength, hrest, hkeeps⟩ := ih hsplit htail hstep
      rw [List.append_assoc] at hkeeps
      refine ⟨past', next', hsplit', ?_, hrest, hkeeps⟩
      rw [hlength, List.length_append, List.length_singleton, List.length_cons]
      omega

end KeepsUp

/-- What a walk from the start finds for a block or a task: its own line, or one above it if the
name was passed over. -/
theorem ownLine_of_locateVisits {names : NameLines} {before after : List Visit} {v : Visit}
    {name : String}
    (h : names.declarations.map Prod.snd = (before ++ v :: after).filterMap Visit.name)
    (hname : v.name = some name) (hwanted : v.wanted = some name) :
    ∃ line own, v.line? names (lastLine 0 (locateVisits names 0 before)) = some line ∧
      ownLine? names before = some own ∧ line ≤ own ∧
      (Visit.skipped (some name) ∉ before → line = own) := by
  rw [List.filterMap_append, List.filterMap_cons_some hname] at h
  obtain ⟨past, next, hsplit, hlength, hnext, hkeeps⟩ :=
    KeepsUp.run before (List.nil_append _).symm h (.start names)
  obtain ⟨⟨own, name'⟩, next, rfl, rfl, -⟩ := List.map_eq_cons_iff.mp hnext
  obtain ⟨line, hline, -, hle, hexact⟩ := hkeeps.locate? hsplit
  refine ⟨line, own, ?_, ?_, hle, hexact⟩
  · rw [Visit.line?_of_wanted hwanted, hline]
  · have hindex : (before.filterMap Visit.name).length = past.length := by
      rw [hlength, List.length_nil, Nat.zero_add]
    rw [ownLine?, hsplit, hindex, List.getElem?_append_right (Nat.le_refl _), Nat.sub_self]
    rfl

/-! ### Tasks -/

/-- The visit is to a task. -/
def Visit.isTask : Visit → Bool
  | task _ => true
  | _ => false

theorem length_placedTasks (l : List (Visit × Option Nat)) :
    (placedTasks l).length = (l.map Prod.fst).countP Visit.isTask := by
  induction l with
  | nil => rfl
  | cons e l ih =>
    obtain ⟨v, line⟩ := e
    rw [List.map_cons, List.countP_cons, ← ih]
    cases v <;> rfl

/-- A visit to a task gives the task that has as many others before it as the visit has. -/
theorem getElem?_gatherTasks (names : NameLines) (before after : List Visit) (t : Task) :
    (gatherTasks names 0 (before ++ .task t :: after)).1[before.countP Visit.isTask]? =
      some { t with
        line := Visit.line? names (lastLine 0 (locateVisits names 0 before)) (.task t) } := by
  have hlength : (gatherTasks names 0 before).1.length = before.countP Visit.isTask := by
    rw [gatherTasks, length_placedTasks, map_fst_locateVisits]
  rw [gatherTasks_append, ← hlength, List.getElem?_append_right (Nat.le_refl _), Nat.sub_self]
  rfl

namespace PlaybookFile

/-- **A task is found at its own line, unless its name was passed over.**  In a list of tasks or
handlers whose text declares the names of its mappings in their order, every task with a name has a
line.  It is the own one if no mapping before the task bears the name and names no module, and
anyway none further down. -/
theorem ownLine_of_readDocument {path : Path} {content : String} {document : Value}
    (hread : readDocument path content = .ok document)
    (hkind : FileKind.ofDocument path document = .tasks ∨
      FileKind.ofDocument path document = .handlers)
    (horder : DeclaresInOrder content (documentItems document)) :
    ∃ f, parse path content = .ok f ∧
      ∀ before t after name,
        (documentItems document).flatMap visitsOf = before ++ .task t :: after →
        t.name = some name →
          ∃ line own, f.tasks[before.countP Visit.isTask]? = some { t with line := some line } ∧
            ownLine? (NameLines.of content) before = some own ∧ line ≤ own ∧
            (Visit.skipped (some name) ∉ before → line = own) := by
  have hdoc := ofDocument_of_taskList (NameLines.of content) hkind
  refine ⟨_, parse_eq_ok_iff.mpr ⟨document, hread, hdoc⟩, ?_⟩
  intro before t after name hvisits hname
  rw [DeclaresInOrder, hvisits] at horder
  obtain ⟨line, own, hline, hown, hle, hexact⟩ := ownLine_of_locateVisits horder hname hname
  refine ⟨line, own, ?_, hown, hle, hexact⟩
  rw [collectTasks_eq, hvisits, getElem?_gatherTasks, hline]

/-- A block and tasks of one name, with another mapping in the block that names no module. -/
def repeatedBlock : String :=
  "- name: A\n" ++
  "  ping:\n" ++
  "- name: A\n" ++
  "  block:\n" ++
  "    - name: B\n" ++
  "      when: x\n" ++
  "    - name: \"A\"\n" ++
  "      ping:\n" ++
  "- name: A\n" ++
  "  ping:\n"

theorem ownLine_of_readDocument_repeatedBlock :
    ∃ document, readDocument (Path.ofText "tasks.yml") repeatedBlock = .ok document ∧
      FileKind.ofDocument (Path.ofText "tasks.yml") document = .tasks ∧
      DeclaresInOrder repeatedBlock (documentItems document) ∧
      ∃ f, parse (Path.ofText "tasks.yml") repeatedBlock = .ok f ∧
        f.tasks.map (·.line) = [some 1, some 7, some 9] ∧
        ∀ before t after name,
          (documentItems document).flatMap visitsOf = before ++ .task t :: after →
          t.name = some name →
            ∃ line own, f.tasks[before.countP Visit.isTask]? = some { t with line := some line } ∧
              ownLine? (NameLines.of repeatedBlock) before = some own ∧ line ≤ own ∧
              (Visit.skipped (some name) ∉ before → line = own) := by
  have hdocument : ((readDocument (Path.ofText "tasks.yml") repeatedBlock).toOption.map fun d =>
      (FileKind.ofDocument (Path.ofText "tasks.yml") d,
        ((documentItems d).flatMap visitsOf).filterMap Visit.name,
        (collectTasks (NameLines.of repeatedBlock) 0 (documentItems d)).1.map (·.line)))
          = some (.tasks, ["A", "A", "B", "A", "A"], [some 1, some 7, some 9]) := by
    decide +kernel
  have hdeclared : (NameLines.of repeatedBlock).declarations
      = [(1, "A"), (3, "A"), (5, "B"), (7, "A"), (9, "A")] := by
    decide +kernel
  cases hread : readDocument (Path.ofText "tasks.yml") repeatedBlock with
  | error e => rw [hread] at hdocument; cases hdocument
  | ok document =>
    rw [hread] at hdocument
    obtain ⟨hkind, hdocument⟩ := Prod.mk.inj (Option.some.inj hdocument)
    obtain ⟨hnames, hlines⟩ := Prod.mk.inj hdocument
    have horder : DeclaresInOrder repeatedBlock (documentItems document) := by
      rw [DeclaresInOrder, hdeclared, hnames]
      rfl
    obtain ⟨f, hparse, hown⟩ := ownLine_of_readDocument hread (.inl hkind) horder
    have hdoc := ofDocument_of_taskList (NameLines.of repeatedBlock) (.inl hkind)
    cases hparse.symm.trans (parse_eq_ok_iff.mpr ⟨document, hread, hdoc⟩)
    exact ⟨document, rfl, hkind, horder, _, hparse, hlines, hown⟩

/-- A task behind a mapping of its name that names no module. -/
def passedOver : String :=
  "- name: A\n" ++
  "  when: x\n" ++
  "- name: A\n" ++
  "  ping:\n"

/-- Where a name was passed over, a later task may be found at another line than its own. -/
theorem not_ownLine_of_passedOver :
    ¬ ∀ (path : Path) (content : String) (document : Value) (f : PlaybookFile),
      readDocument path content = .ok document →
      FileKind.ofDocument path document = .tasks ∨ FileKind.ofDocument path document = .handlers →
      DeclaresInOrder content (documentItems document) → parse path content = .ok f →
        ∀ before t after name,
          (documentItems document).flatMap visitsOf = before ++ .task t :: after →
          t.name = some name →
            ∃ own, f.tasks[before.countP Visit.isTask]? = some { t with line := some own } ∧
              ownLine? (NameLines.of content) before = some own := by
  intro h
  have hdocument : ((readDocument (Path.ofText "tasks.yml") passedOver).toOption.map fun d =>
      (FileKind.ofDocument (Path.ofText "tasks.yml") d,
        ((documentItems d).flatMap visitsOf).map fun v => (v.name, v.isTask),
        (collectTasks (NameLines.of passedOver) 0 (documentItems d)).1.map (·.line)))
          = some (.tasks, [(some "A", false), (some "A", true)], [some 1]) := by
    decide +kernel
  have hdeclared : (NameLines.of passedOver).declarations = [(1, "A"), (3, "A")] := by
    decide +kernel
  cases hread : readDocument (Path.ofText "tasks.yml") passedOver with
  | error e => rw [hread] at hdocument; cases hdocument
  | ok document =>
  rw [hread] at hdocument
  obtain ⟨hkind, hdocument⟩ := Prod.mk.inj (Option.some.inj hdocument)
  obtain ⟨hmap, hlines⟩ := Prod.mk.inj hdocument
  have hdoc := ofDocument_of_taskList (NameLines.of passedOver) (.inl hkind)
  have hparse := parse_eq_ok_iff.mpr ⟨document, hread, hdoc⟩
  -- the document has two visits: the mapping that is passed over, and the task
  obtain ⟨u, l, hvisits, hu, hl⟩ := List.map_eq_cons_iff.mp hmap
  obtain ⟨v, l, rfl, hv, hl⟩ := List.map_eq_cons_iff.mp hl
  obtain ⟨hname, htask⟩ := Prod.mk.inj hu
  obtain ⟨hname', htask'⟩ := Prod.mk.inj hv
  rw [List.map_eq_nil_iff.mp hl] at hvisits
  cases v with
  | block n => cases htask'
  | skipped n => cases htask'
  | task t =>
    have horder : DeclaresInOrder passedOver (documentItems document) := by
      rw [DeclaresInOrder, hdeclared, hvisits, List.filterMap_cons_some hname,
        List.filterMap_cons_some hname']
      rfl
    obtain ⟨own, hfound, hown⟩ :=
      h _ _ document _ hread (.inl hkind) horder hparse [u] t [] "A" hvisits hname'
    have hsecond : ownLine? (NameLines.of passedOver) [u] = some 3 := by
      rw [ownLine?, hdeclared, List.filterMap_cons_some hname]
      rfl
    have hfirst : [u].countP Visit.isTask = 0 := by
      rw [List.countP_singleton, htask, if_neg Bool.false_ne_true]
    rw [hfirst] at hfound
    have hline := congrArg (Option.map (·.line)) hfound
    dsimp only at hline
    rw [← List.getElem?_map, hlines] at hline
    rw [hown] at hsecond
    cases hsecond
    cases hline

end PlaybookFile

end PlaybookPolicy
