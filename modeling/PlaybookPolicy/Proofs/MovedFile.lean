import PlaybookPolicy.Proofs.LoadedFile
import PlaybookPolicy.Proofs.StableSort
import PlaybookPolicy.Proofs.PathOrder

/-!
# Files at another path

What a file holds does not depend on where it lies, up to the kind of a list of tasks: its plays,
its findings and its failure bear the path, and nothing else does.  So files that are moved in a
way that keeps their order, and that keeps apart what is a list of tasks and what is not, give the
same outcome with other paths in it.

## Main definitions

* `Finding.mapPath`, `LoadFailure.mapPath`, `Outcome.mapPaths` — other paths in an outcome.
* `FileKind.Alike` — two kinds of files that are linted alike.
* `Moved` — the results of loading a file at two paths.
* `KeepsOrder` — a map of paths that keeps their order.

## Main results

* `PlaybookFile.moved_parse` — **a text gives the same file at another path.**
* `Outcome.ofFiles_map` — **moved files give the same outcome with other paths.**
-/

namespace PlaybookPolicy

open Yaml (Value Mapping)

/-! ### Other paths -/

section

variable (φ : Path → Path)

/-- The finding in a file with another path. -/
def Finding.mapPath (f : Finding) : Finding :=
  { f with file := φ f.file }

/-- The error for a file with another path. -/
def LoadError.mapPath : LoadError → LoadError
  | .unreadable path cause => .unreadable (φ path) cause
  | .invalidYaml path => .invalidYaml (φ path)
  | .missingModule name => .missingModule name
  | .invalidCollections => .invalidCollections

/-- The failure of a file with another path. -/
def LoadFailure.mapPath (f : LoadFailure) : LoadFailure :=
  { path := φ f.path, error := f.error.mapPath φ }

/-- The outcome with other paths in it. -/
def Outcome.mapPaths (o : Outcome) : Outcome :=
  { o with
    findings := o.findings.map (Finding.mapPath φ)
    failures := o.failures.map (LoadFailure.mapPath φ) }

/-- The play of a file with another path. -/
def Play.mapPath (p : Play) : Play :=
  { p with path := φ p.path }

theorem Outcome.passed_mapPaths (o : Outcome) : (o.mapPaths φ).passed = o.passed := by
  rw [passed, passed, mapPaths, List.isEmpty_map, List.isEmpty_map]

end

/-! ### Kinds -/

/-- Files of the two kinds are linted alike: tasks and handlers make no difference. -/
def FileKind.Alike (k k' : FileKind) : Prop :=
  k' = k ∨ (k = .tasks ∨ k = .handlers) ∧ (k' = .tasks ∨ k' = .handlers)

theorem FileKind.ofTaskPath_ne_playbook (p : Path) : ofTaskPath p ≠ .playbook := by
  rw [ofTaskPath]
  split
  · simp
  · split
    · simp
    · split <;> simp

theorem FileKind.alike_ofDocument {p q : Path}
    (h : ofTaskPath q = .other ↔ ofTaskPath p = .other) (document : Value) :
    Alike (ofDocument p document) (ofDocument q document) := by
  cases document with
  | sequence items =>
    simp only [ofDocument]
    split
    · exact .inl rfl
    · split
      · exact .inl rfl
      · have hp := ofTaskPath_ne_playbook p
        have hq := ofTaskPath_ne_playbook q
        rw [Alike]
        revert h hp hq
        cases ofTaskPath p <;> cases ofTaskPath q <;> simp
  | _ => exact .inl rfl

/-! ### Loading at another path -/

/-- The results of loading a file at two paths: the same plays and tasks, or the same error. -/
inductive Moved (φ : Path → Path) :
    Except LoadError PlaybookFile → Except LoadError PlaybookFile → Prop
  /-- The file has the same plays and tasks. -/
  | ok {f f' : PlaybookFile} (hpath : f'.path = φ f.path)
      (hplays : f'.plays = f.plays.map (Play.mapPath φ)) (htasks : f'.tasks = f.tasks) :
      Moved φ (.ok f) (.ok f')
  /-- The file fails to load for the same reason. -/
  | error (e : LoadError) : Moved φ (.error e) (.error (e.mapPath φ))

variable {φ : Path → Path}

theorem Moved.error_eq {e e' : LoadError} (h : Moved φ (.error e) (.error e')) :
    e' = e.mapPath φ := by
  cases h
  rfl

theorem collectPlays_map (names : NameLines) (p : Path) :
    ∀ (l : List Mapping) (cursor : Nat),
      collectPlays names (φ p) cursor l =
        (collectPlays names p cursor l).map fun (plays, tasks) =>
          (plays.map (Play.mapPath φ), tasks) := by
  intro l
  induction l with
  | nil =>
    intro cursor
    rfl
  | cons m l ih =>
    intro cursor
    rw [collectPlays, collectPlays, Play.ofMapping, Play.ofMapping]
    cases Play.collectionsOf m with
    | error e => rfl
    | ok collections =>
      simp only [Except.map]
      rw [ih]
      cases collectPlays names p _ l with
      | error e => rfl
      | ok r => rfl

theorem error_of_collectionsOf {m : Mapping} {e : LoadError}
    (h : Play.collectionsOf m = .error e) : e = .invalidCollections := by
  rw [Play.collectionsOf] at h
  split at h
  · cases h
  · cases h
  · split at h
    · cases h
    · cases h
      rfl
  · cases h
    rfl

theorem error_of_collectPlays {names : NameLines} {p : Path} {e : LoadError} :
    ∀ {l : List Mapping} {cursor : Nat}, collectPlays names p cursor l = .error e →
      e = .invalidCollections := by
  intro l
  induction l with
  | nil =>
    intro cursor h
    cases h
  | cons m l ih =>
    intro cursor h
    rw [collectPlays, Play.ofMapping] at h
    cases hm : Play.collectionsOf m with
    | error e' =>
      rw [hm] at h
      cases h
      exact error_of_collectionsOf hm
    | ok collections =>
      rw [hm] at h
      simp only [Except.map] at h
      cases hl : collectPlays names p _ l with
      | error e' =>
        rw [hl] at h
        cases h
        exact ih hl
      | ok r =>
        rw [hl] at h
        cases h

namespace PlaybookFile

theorem moved_ofDocument {p : Path}
    (h : FileKind.ofTaskPath (φ p) = .other ↔ FileKind.ofTaskPath p = .other)
    (names : NameLines) (document : Value) :
    Moved φ (ofDocument p names document) (ofDocument (φ p) names document) := by
  cases document with
  | sequence items =>
    have halike := FileKind.alike_ofDocument h (.sequence items)
    cases hk : FileKind.ofDocument p (.sequence items) with
    | playbook =>
      have hk' : FileKind.ofDocument (φ p) (.sequence items) = .playbook := by
        simpa [FileKind.Alike, hk] using halike
      simp only [ofDocument, hk, hk', collectPlays_map]
      cases hplays : collectPlays names p 0 (playMappings items) with
      | error e =>
        cases error_of_collectPlays hplays
        exact .error .invalidCollections
      | ok r => exact .ok rfl rfl rfl
    | other =>
      have hk' : FileKind.ofDocument (φ p) (.sequence items) = .other := by
        simpa [FileKind.Alike, hk] using halike
      simp only [ofDocument, hk, hk']
      exact .ok rfl rfl rfl
    | tasks =>
      have hk' : FileKind.ofDocument (φ p) (.sequence items) = .tasks ∨
          FileKind.ofDocument (φ p) (.sequence items) = .handlers := by
        simpa [FileKind.Alike, hk] using halike
      rcases hk' with hk' | hk' <;> simp only [ofDocument, hk, hk'] <;> exact .ok rfl rfl rfl
    | handlers =>
      have hk' : FileKind.ofDocument (φ p) (.sequence items) = .tasks ∨
          FileKind.ofDocument (φ p) (.sequence items) = .handlers := by
        simpa [FileKind.Alike, hk, or_comm] using halike
      rcases hk' with hk' | hk' <;> simp only [ofDocument, hk, hk'] <;> exact .ok rfl rfl rfl
  | _ => exact .ok rfl rfl rfl

/-- **A text gives the same file at another path**, if the path does not change whether it may hold
tasks. -/
theorem moved_parse {p : Path}
    (h : FileKind.ofTaskPath (φ p) = .other ↔ FileKind.ofTaskPath p = .other) (content : String) :
    Moved φ (parse p content) (parse (φ p) content) := by
  rw [parse, parse, readDocument, readDocument]
  by_cases hblank : Text.isBlankText content = true
  · rw [if_pos hblank, if_pos hblank]
    exact moved_ofDocument h _ .null
  · rw [if_neg hblank, if_neg hblank]
    cases Yaml.read? content with
    | none => exact .error (.invalidYaml p)
    | some document => exact moved_ofDocument h _ document

end PlaybookFile

/-! ### Outcomes at other paths -/

theorem playFindings_mapPath (r : Rule) (p : Play) :
    r.playFindings (p.mapPath φ) = (r.playFindings p).map (Finding.mapPath φ) := by
  have hcomplaints : r.playComplaints (p.mapPath φ) = r.playComplaints p := by
    rw [Rule.playComplaints, Rule.playComplaints]
    cases r.check <;> rfl
  rw [Rule.playFindings, Rule.playFindings, hcomplaints, List.map_map]
  rfl

theorem taskFindings_map (r : Rule) (p : Path) (t : Task) :
    r.taskFindings (φ p) t = (r.taskFindings p t).map (Finding.mapPath φ) := by
  rw [Rule.taskFindings, Rule.taskFindings, List.map_map]
  rfl

namespace LoadResult

variable {p : Path} {result result' : Except LoadError PlaybookFile}

theorem findings_of_moved (h : Moved φ result result') (g : Registry) :
    findings g { path := φ p, result := result' } =
      (findings g { path := p, result := result }).map (Finding.mapPath φ) := by
  cases h with
  | ok hpath hplays htasks =>
    simp only [findings, PlaybookFile.findings, PlaybookFile.playFindings,
      PlaybookFile.taskFindings, hpath, hplays, htasks, playFindings_mapPath, taskFindings_map,
      List.map_append, List.map_flatMap, List.flatMap_map]
  | error e => rfl

theorem failure?_of_moved (h : Moved φ result result') :
    failure? { path := φ p, result := result' } =
      (failure? { path := p, result := result }).map (LoadFailure.mapPath φ) := by
  cases h with
  | ok hpath hplays htasks => rfl
  | error e => rfl

end LoadResult

/-- The map keeps the order of the paths. -/
def KeepsOrder (φ : Path → Path) (files : List Path) : Prop :=
  ∀ p ∈ files, ∀ q ∈ files, (φ p).compareParts (φ q) = p.compareParts q

/-- The findings and the error of the file bear its path. -/
structure LoadResult.BearsPath (r : LoadResult) : Prop where
  findings : ∀ g, ∀ x ∈ r.findings g, x.file = r.path
  error : ∀ e, r.result = .error e → ∀ φ : Path → Path, φ r.path = r.path → e.mapPath φ = e

theorem LoadResult.path_of_failure? {r : LoadResult} {x : LoadFailure}
    (h : r.failure? = some x) : x.path = r.path ∧ r.result = .error x.error := by
  rw [LoadResult.failure?] at h
  split at h
  · cases h
  · next e he =>
    cases h
    exact ⟨rfl, he⟩

theorem Finding.comesBefore_mapPath {a b : Finding}
    (h : (φ a.file).compareParts (φ b.file) = a.file.compareParts b.file) :
    (a.mapPath φ).comesBefore (b.mapPath φ) = a.comesBefore b := by
  rw [comesBefore, comesBefore, Finding.compare, Finding.compare, mapPath, mapPath, h]

theorem LoadFailure.comesBefore_mapPath {a b : LoadFailure}
    (h : (φ a.path).compareParts (φ b.path) = a.path.compareParts b.path) :
    (a.mapPath φ).comesBefore (b.mapPath φ) = a.comesBefore b := by
  rw [comesBefore, comesBefore, mapPath, mapPath, h]

namespace Outcome

variable {g : Registry} {load load' : Path → Except LoadError PlaybookFile} {files : List Path}

/-- **Moved files give the same outcome with other paths.** -/
theorem ofFiles_map (hmoved : ∀ p ∈ files, Moved φ (load p) (load' (φ p)))
    (hpath : ∀ p ∈ files, LoadResult.BearsPath { path := p, result := load p })
    (horder : KeepsOrder φ files) :
    ofFiles g load' (files.map φ) = (ofFiles g load files).mapPaths φ := by
  have hfindings : (files.map φ).flatMap (fun p => LoadResult.findings g
        { path := p, result := load' p }) =
      (files.flatMap fun p => LoadResult.findings g
        { path := p, result := load p }).map (Finding.mapPath φ) := by
    rw [List.flatMap_map, List.map_flatMap]
    exact List.flatMap_congr fun p hp => LoadResult.findings_of_moved (hmoved p hp) g
  have hfailures : (files.map φ).filterMap (fun p => LoadResult.failure?
        { path := p, result := load' p }) =
      (files.filterMap fun p => LoadResult.failure?
        { path := p, result := load p }).map (LoadFailure.mapPath φ) := by
    rw [List.filterMap_map, List.map_filterMap]
    exact List.filterMap_congr fun p hp => LoadResult.failure?_of_moved (hmoved p hp)
  have hfile : ∀ x ∈ files.flatMap (fun p => LoadResult.findings g
      { path := p, result := load p }), x.file ∈ files := by
    intro x hx
    obtain ⟨p, hp, hx⟩ := List.mem_flatMap.mp hx
    rw [(hpath p hp).findings g x hx]
    exact hp
  have hfailed : ∀ x ∈ files.filterMap (fun p => LoadResult.failure?
      { path := p, result := load p }), x.path ∈ files := by
    intro x hx
    obtain ⟨p, hp, hx⟩ := List.mem_filterMap.mp hx
    rw [(LoadResult.path_of_failure? hx).1]
    exact hp
  -- a sort that depends on the order of paths alone does not see that they are others
  rw [ofFiles_eq, ofFiles_eq, mapPaths, hfindings, hfailures, List.length_map, Outcome.mk.injEq]
  refine ⟨?_, ?_, rfl, rfl⟩
  · refine (List.map_mergeSort fun a ha b hb => ?_).symm
    exact (Finding.comesBefore_mapPath (horder _ (hfile a ha) _ (hfile b hb))).symm
  · refine (List.map_mergeSort fun a ha b hb => ?_).symm
    exact (LoadFailure.comesBefore_mapPath (horder _ (hfailed a ha) _ (hfailed b hb))).symm

theorem mapPaths_mapPaths (ψ : Path → Path) (o : Outcome) :
    (o.mapPaths φ).mapPaths ψ = o.mapPaths (ψ ∘ φ) := by
  have herror : LoadFailure.mapPath ψ ∘ LoadFailure.mapPath φ = LoadFailure.mapPath (ψ ∘ φ) := by
    funext f
    obtain ⟨p, e⟩ := f
    cases e <;> rfl
  rw [mapPaths, mapPaths, mapPaths, List.map_map, List.map_map, herror]
  rfl

/-- A map that leaves the files alone leaves their outcome alone. -/
theorem mapPaths_ofFiles (hpath : ∀ p ∈ files, LoadResult.BearsPath { path := p, result := load p })
    (hφ : ∀ p ∈ files, φ p = p) : (ofFiles g load files).mapPaths φ = ofFiles g load files := by
  rw [ofFiles_eq, mapPaths, Outcome.mk.injEq]
  refine ⟨?_, ?_, rfl, rfl⟩
  · refine (List.map_congr_left fun x hx => ?_).trans (List.map_id _)
    obtain ⟨p, hp, hx⟩ := List.mem_flatMap.mp (List.mem_mergeSort.mp hx)
    have hfile : x.file = p := (hpath p hp).findings g x hx
    rw [Finding.mapPath, hfile, hφ p hp, ← hfile]
    rfl
  · refine (List.map_congr_left fun x hx => ?_).trans (List.map_id _)
    obtain ⟨p, hp, hx⟩ := List.mem_filterMap.mp (List.mem_mergeSort.mp hx)
    obtain ⟨hfile, herror⟩ := LoadResult.path_of_failure? hx
    have hfile : x.path = p := hfile
    have hfixed : x.error.mapPath φ = x.error := (hpath p hp).error _ herror φ (hφ p hp)
    rw [LoadFailure.mapPath, hfixed, hfile, hφ p hp, ← hfile]
    rfl

end Outcome

/-! ### Paths of loaded files -/

theorem bearsPath_unreadable (p : Path) (cause : FileError) :
    LoadResult.BearsPath { path := p, result := .error (.unreadable p cause) } where
  findings g x hx := by cases hx
  error e he φ hφ := by
    cases he
    rw [LoadError.mapPath, hφ]

theorem bearsPath_parse (p : Path) (content : String) :
    LoadResult.BearsPath { path := p, result := PlaybookFile.parse p content } where
  findings g x hx := by
    rw [LoadResult.findings] at hx
    cases hf : PlaybookFile.parse p content with
    | error e =>
      rw [hf] at hx
      cases hx
    | ok f =>
      rw [hf] at hx
      obtain ⟨document, -, hdoc⟩ := PlaybookFile.parse_eq_ok_iff.mp hf
      exact PlaybookFile.file_of_mem_findings (PlaybookFile.cases_of_ofDocument hdoc).1
        (fun play hplay => (PlaybookFile.play_of_ofDocument hdoc play hplay).2) hx
  error e he φ hφ := by
    have hφ : φ p = p := hφ
    have he : PlaybookFile.parse p content = .error e := he
    have hmoved : Moved φ (PlaybookFile.parse p content) (PlaybookFile.parse (φ p) content) :=
      PlaybookFile.moved_parse (by rw [hφ]) content
    rw [hφ, he] at hmoved
    exact hmoved.error_eq.symm

end PlaybookPolicy
