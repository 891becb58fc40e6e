import PlaybookPolicy.Proofs.ClaimedLines

/-!
# Findings point at lines of their files

A line that is found for a play or a task is one of the lines of the text, and a play that is not
found is shown at the first line, which every text has.  So a finding points at a line of its file,
if it points at one.  Lines are counted without a bound here; in a file of fewer than `2 ^ 32` lines
no count would be another one in thirty-two bits.

## Main definitions

* `NameLines.HasLine` — the text has a line with the given number.

## Main results

* `NameLines.hasLine_of_locate?` — a line that is found is there.
* `PlaybookFile.hasLine_of_parse` — the plays and tasks of a file stand at lines of its text.
* `FileTree.hasLine_of_mem_lint` — **a finding points at a line of its file.**
* `FileTree.toNat_line_of_mem_lint` — its number fits thirty-two bits if that of the lines does.
-/

namespace PlaybookPolicy

open Yaml (Value Mapping)

/-! ### Lines of a text -/

namespace NameLines

/-- There is a line with the number, counted from one. -/
def HasLine (names : NameLines) (line : Nat) : Prop :=
  0 < line ∧ line ≤ names.length

variable {names : NameLines}

theorem length_of (content : String) :
    (NameLines.of content).length = (splitLines content.toList).length := by
  unfold NameLines.of
  exact List.length_map _

/-- Every text has a first line, be it empty. -/
theorem hasLine_one (content : String) : (NameLines.of content).HasLine 1 := by
  refine ⟨Nat.one_pos, ?_⟩
  rw [length_of, splitLines]
  exact List.length_pos_iff.mpr (List.splitOn_ne_nil '\n' content.toList)

theorem hasLine_of_getElem? {line : Nat} {name? : Option String} (hpos : 0 < line)
    (h : names[line - 1]? = some name?) : names.HasLine line := by
  obtain ⟨hlt, -⟩ := List.getElem?_eq_some_iff.mp h
  unfold HasLine
  omega

/-- A line that is found is there. -/
theorem hasLine_of_locate? {name : String} {after line : Nat}
    (h : names.locate? name after = some line) : names.HasLine line := by
  obtain ⟨hafter, hname⟩ := spec_of_locate? h
  exact hasLine_of_getElem? (by omega) hname

theorem hasLine_of_locateName? {name? : Option String} {after line : Nat}
    (h : names.locateName? name? after = some line) : names.HasLine line := by
  obtain ⟨name, -, hname⟩ := Option.bind_eq_some_iff.mp h
  exact hasLine_of_locate? hname

end NameLines

/-! ### Lines of plays and tasks -/

/-- A walk claims lines that are there. -/
theorem TaskClaims.hasLine {names : NameLines} {cursor : Nat} {r : List Task × Nat}
    (h : TaskClaims names cursor r) {t : Task} (ht : t ∈ r.1) {line : Nat}
    (hline : t.line = some line) : names.HasLine line := by
  have hbetween := h.between t ht line hline
  exact NameLines.hasLine_of_getElem? (by omega) (h.declared t ht line hline).2

theorem hasLine_of_mem_collectSections {names : NameLines} {start : Nat} {m : Mapping} :
    ∀ {keys : List String} {cursor : Nat},
      ∀ t ∈ (collectSections names start m cursor keys).1, ∀ line, t.line = some line →
        names.HasLine line := by
  intro keys
  induction keys with
  | nil =>
    intro cursor t ht
    cases ht
  | cons key keys ih =>
    intro cursor t ht line hline
    rcases List.mem_append.mp ht with ht | ht
    · exact (taskClaims_collectTasks names start _).hasLine ht hline
    · exact ih t ht line hline

/-- The plays of a playbook, and the tasks in them, stand at lines that are there. -/
theorem hasLine_of_collectPlays {names : NameLines} {path : Path} (hone : names.HasLine 1) :
    ∀ {l : List Mapping} {cursor : Nat} {plays : List Play} {tasks : List Task},
      collectPlays names path cursor l = .ok (plays, tasks) →
        (∀ play ∈ plays, ∀ line, play.line = some line → names.HasLine line) ∧
          ∀ t ∈ tasks, ∀ line, t.line = some line → names.HasLine line := by
  intro l
  induction l with
  | nil =>
    intro cursor plays tasks h
    cases h
    exact ⟨List.forall_mem_nil _, List.forall_mem_nil _⟩
  | cons m l ih =>
    intro cursor plays tasks h
    obtain ⟨play, -, found?, hfound, found, rfl, rest, more, hrest, rfl, rfl⟩ :=
      collectPlays_cons_eq_ok_iff.mp h
    obtain ⟨hplays, htasks⟩ := ih hrest
    constructor
    · refine List.forall_mem_cons.mpr ⟨fun line hline => ?_, hplays⟩
      -- the play is shown where its name is found, or at the first line
      cases Option.some.inj hline
      cases hname : found? with
      | none => exact hone
      | some line => exact NameLines.hasLine_of_locateName? (hfound.symm.trans hname)
    · intro t ht
      rcases List.mem_append.mp ht with ht | ht
      · exact hasLine_of_mem_collectSections t ht
      · exact htasks t ht

namespace PlaybookFile

/-- The plays and tasks of a file stand at lines of its text. -/
theorem hasLine_of_parse {path : Path} {content : String} {f : PlaybookFile}
    (h : parse path content = .ok f) :
    (∀ play ∈ f.plays, ∀ line, play.line = some line → (NameLines.of content).HasLine line) ∧
      ∀ t ∈ f.tasks, ∀ line, t.line = some line → (NameLines.of content).HasLine line := by
  obtain ⟨document, -, hdoc⟩ := parse_eq_ok_iff.mp h
  obtain ⟨-, -, ⟨-, items, -, hplays⟩ | ⟨-, items, -, hplays, htasks⟩ | ⟨-, hplays, htasks⟩⟩ :=
    cases_of_ofDocument hdoc
  · exact hasLine_of_collectPlays (NameLines.hasLine_one content) hplays
  · rw [hplays, htasks]
    exact ⟨List.forall_mem_nil _,
      fun t ht line hline => (taskClaims_collectTasks _ 0 items).hasLine ht hline⟩
  · rw [hplays, htasks]
    exact ⟨List.forall_mem_nil _, List.forall_mem_nil _⟩

/-- A finding in a file is at the line of a play or a task. -/
theorem line_of_mem_findings {f : PlaybookFile} {g : Registry} {x : Finding}
    (h : x ∈ f.findings g) :
    (∃ play ∈ f.plays, x.line = play.line) ∨ ∃ t ∈ f.tasks, x.line = t.line := by
  simp only [findings, playFindings, taskFindings, Rule.playFindings, Rule.taskFindings,
    List.mem_append, List.mem_flatMap, List.mem_map] at h
  obtain ⟨play, hplay, rule, -, message, -, rfl⟩ | ⟨t, ht, rule, -, message, -, rfl⟩ := h
  · exact .inl ⟨play, hplay, rfl⟩
  · exact .inr ⟨t, ht, rfl⟩

end PlaybookFile

/-! ### Lines of findings -/

namespace FileTree

variable {t : FileTree} {g : Registry}

theorem hasLine_of_mem_findingsAt {p : Path} {x : Finding} (h : x ∈ t.findingsAt g p) :
    ∃ content, t.readText p = .ok content ∧
      ∀ line, x.line = some line → (NameLines.of content).HasLine line := by
  unfold findingsAt at h
  cases hf : t.load p with
  | error e =>
    rw [hf] at h
    cases h
  | ok f =>
    rw [hf] at h
    obtain ⟨content, hread, hparse⟩ := load_eq_ok_iff.mp hf
    obtain ⟨hplays, htasks⟩ := PlaybookFile.hasLine_of_parse hparse
    refine ⟨content, hread, fun line hline => ?_⟩
    obtain ⟨play, hplay, heq⟩ | ⟨task, htask, heq⟩ := PlaybookFile.line_of_mem_findings h
    · exact hplays play hplay line (heq ▸ hline)
    · exact htasks task htask line (heq ▸ hline)

/-- **A finding points at a line of its file**, if it points at one. -/
theorem hasLine_of_mem_lint {files : List Path} {x : Finding}
    (h : x ∈ (t.lint g files).findings) :
    x.file ∈ files ∧ ∃ content, t.readText x.file = .ok content ∧
      ∀ line, x.line = some line → 0 < line ∧ line ≤ (splitLines content.toList).length := by
  rw [lint_eq] at h
  obtain ⟨p, hp, hx⟩ := List.mem_flatMap.mp ((List.mergeSort_perm _ _).mem_iff.mp h)
  obtain ⟨content, hread, hlines⟩ := hasLine_of_mem_findingsAt hx
  rw [file_of_mem_findingsAt hx]
  refine ⟨hp, content, hread, fun line hline => ?_⟩
  rw [← NameLines.length_of]
  exact hlines line hline

/-- The number of a line fits thirty-two bits if the number of all lines does. -/
theorem toNat_line_of_mem_lint {files : List Path}
    (hlines : ∀ p ∈ files, ∀ content, t.readText p = .ok content →
      (splitLines content.toList).length < Nat.pow 2 32)
    {x : Finding} (h : x ∈ (t.lint g files).findings) {line : Nat} (hline : x.line = some line) :
    (UInt32.ofNat line).toNat = line := by
  obtain ⟨hfile, content, hread, hmem⟩ := hasLine_of_mem_lint h
  have hle := (hmem line hline).2
  have hlt := hlines x.file hfile content hread
  apply UInt32.toNat_ofNat_of_lt
  show line < Nat.pow 2 32
  omega

end FileTree

end PlaybookPolicy
