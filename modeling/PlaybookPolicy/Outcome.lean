import PlaybookPolicy.PlaybookFile.Findings

/-!
# The outcome of a run

What the rules find in a list of files, together with the files that could not be loaded. Both lists
are sorted, so the order in which the files were listed does not show.

## Main definitions

* `LoadFailure` — a file that could not be loaded.
* `Outcome` — findings, failures and counts.
* `Finding.comesBefore` — the order of findings: file, line, rule.
* `Outcome.ofFiles` — the outcome for a list of files.
* `Outcome.passed` — nothing was found and nothing failed.
-/

namespace PlaybookPolicy

/-- A file that could not be loaded. -/
structure LoadFailure where
  /-- The file. -/
  path : Path
  /-- Why it could not be loaded. -/
  error : LoadError
  deriving DecidableEq

/-- The outcome of a run. -/
structure Outcome where
  /-- All findings, sorted. -/
  findings : List Finding
  /-- The files that could not be loaded, sorted by path. -/
  failures : List LoadFailure
  /-- The number of files that were given. -/
  filesChecked : Nat
  /-- The number of rules that ran. -/
  rulesExecuted : Nat
  deriving DecidableEq

/-! ### Orders -/

/-- The order of lines: no line comes before all lines. -/
def compareLines (a b : Option Nat) : Ordering :=
  match a, b with
  | none, none => .eq
  | none, some _ => .lt
  | some _, none => .gt
  | some m, some n => compare m n

namespace Finding

/-- The order of findings: by file, then line, then rule. -/
def compare (a b : Finding) : Ordering :=
  (a.file.compareParts b.file).then
    ((compareLines a.line b.line).then (Ord.compare a.rule.text b.rule.text))

/-- The first finding may stand before the second. -/
def comesBefore (a b : Finding) : Bool :=
  (a.compare b).isLE

end Finding

/-- The first failure may stand before the second. -/
def LoadFailure.comesBefore (a b : LoadFailure) : Bool :=
  (a.path.compareParts b.path).isLE

/-! ### Outcomes -/

/-- How loading a file went. -/
structure LoadResult where
  /-- The path that was loaded. -/
  path : Path
  /-- The file, or why there is none. -/
  result : Except LoadError PlaybookFile

namespace LoadResult

/-- What the rules find in the file; nothing if it did not load. -/
def findings (g : Registry) (r : LoadResult) : List Finding :=
  match r.result with
  | .ok f => f.findings g
  | .error _ => []

/-- The failure, if the file did not load. -/
def failure? (r : LoadResult) : Option LoadFailure :=
  match r.result with
  | .ok _ => none
  | .error error => some { path := r.path, error }

end LoadResult

namespace Outcome

/-- The run found nothing, and every file loaded. -/
def passed (o : Outcome) : Bool :=
  o.findings.isEmpty && o.failures.isEmpty

/-- The outcome for files that have been loaded. -/
def ofResults (g : Registry) (results : List LoadResult) : Outcome :=
  { findings := (results.flatMap (LoadResult.findings g)).mergeSort Finding.comesBefore
    failures := (results.filterMap LoadResult.failure?).mergeSort LoadFailure.comesBefore
    filesChecked := results.length
    rulesExecuted := g.size }

/-- The outcome for a list of files, each read by `load`. -/
def ofFiles (g : Registry) (load : Path → Except LoadError PlaybookFile) (files : List Path) :
    Outcome :=
  ofResults g (files.map fun path => { path, result := load path })

end Outcome

end PlaybookPolicy
