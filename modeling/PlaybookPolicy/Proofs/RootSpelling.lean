import PlaybookPolicy.Proofs.FoundFiles
import PlaybookPolicy.Proofs.MovedFile

/-!
# The spelling of a root

A directory can be walked under several spellings: as `.` from inside, or by an absolute path.  The
files found are the same, in the same order; patterns see the same paths, and what is read from a
file is the same.  Only the kind of a list of tasks looks at all names of a path, also at those of
the root: in a directory `vars` nothing is a list of tasks.  So the outcome depends on the spelling
of the root just if it brings in such a name.

## Main definitions

* `Path.nameTexts` — the names in a path.
* `FileTree.listedBelow` — the files to lint below a directory, as paths from there.
* `FileTree.loadBelow` — loading a file below a root, under its path from there.
* `Outcome.relativeTo` — the outcome with a root taken away from its paths.

## Main results

* `FileTree.discover_of_directory` — a root finds the files below its directory.
* `FileTree.relativeTo_lint` — taking the root away leaves an outcome that does not know the root.
* `FileTree.outcome_eq_of_spelling` — **an absolute root gives the outcome of the working directory,
  unless a name in it rules out tasks.**
* `FileTree.failureAt?_of_tooLong` — a file fails if its path is too long.
* `FileTree.outcome_ne_of_spelling` — such a name may change the outcome, and so may a long root.
-/

namespace PlaybookPolicy

/-! ### Kinds below a root -/

namespace Path

/-- The names in a path, as far as they are text. -/
def nameTexts (p : Path) : List String :=
  p.parts.filterMap fun
    | .name n => Text.Utf8.decode? n
    | _ => none

variable {root : Path} {names : Place}

theorem parentNames_join (hroot : root.octets ≠ []) (h : IsDescent names) :
    (root.join (ofNames names)).parentNames = root.nameTexts ++ (ofNames names).parentNames := by
  have hne : names.map PathPart.name ≠ [] := by simpa using h.ne_nil
  rw [parentNames, parts_join hroot h, List.dropLast_append_of_ne_nil hne, List.filterMap_append,
    parentNames, parts_ofNames h]
  rfl

theorem fileName?_join (hroot : root.octets ≠ []) (h : IsDescent names) :
    (root.join (ofNames names)).fileName? = (ofNames names).fileName? := by
  have hne : names.map PathPart.name ≠ [] := by simpa using h.ne_nil
  rw [fileName?, fileName?, parts_join hroot h, parts_ofNames h,
    List.getLast?_append_of_ne_nil _ hne]

theorem segments_cons_slash (l : List UInt8) : segments (slash :: l) = [] :: segments l :=
  List.splitOn_append_cons_self [] l

theorem segments_slashes (n : Nat) (l : List UInt8) :
    segments (List.replicate n slash ++ l) = List.replicate n [] ++ segments l := by
  induction n with
  | zero => rfl
  | succ n ih =>
    rw [List.replicate_succ, List.cons_append, segments_cons_slash, ih]
    rfl

end Path

namespace FileKind

variable {root : Path} {names : Place}

/-- A root without such names does not make a file one that has no list of tasks. -/
theorem any_parentNames_join (hroot : root.octets ≠ []) (h : IsDescent names)
    (hnames : ∀ s ∈ root.nameTexts, s ∉ nonTaskDirectories) :
    (root.join (.ofNames names)).parentNames.any nonTaskDirectories.contains =
      (Path.ofNames names).parentNames.any nonTaskDirectories.contains := by
  have hany : root.nameTexts.any nonTaskDirectories.contains = false := by
    rw [List.any_eq_false]
    intro s hs
    simpa using hnames s hs
  rw [Path.parentNames_join hroot h, List.any_append, hany, Bool.false_or]

theorem ofTaskPath_join (hroot : root.octets ≠ []) (h : IsDescent names)
    (hnames : ∀ s ∈ root.nameTexts, s ∉ nonTaskDirectories) :
    ofTaskPath (root.join (.ofNames names)) = .other ↔ ofTaskPath (.ofNames names) = .other := by
  rw [ofTaskPath, ofTaskPath, Path.fileName?_join hroot h, any_parentNames_join hroot h hnames]
  split
  · rfl
  · split
    · rfl
    · split <;> split <;> simp

/-- **A root without names that matter does not change the kind** of a file. -/
theorem ofDocument_join (hroot : root.octets ≠ []) (h : IsDescent names)
    (hnames : ∀ s ∈ root.nameTexts, s ∉ "handlers" :: nonTaskDirectories)
    (document : Yaml.Value) :
    ofDocument (root.join (.ofNames names)) document = ofDocument (.ofNames names) document := by
  have hhandlers : root.nameTexts.contains "handlers" = false := by
    rw [List.contains_eq_mem, decide_eq_false_iff_not]
    intro hmem
    exact hnames _ hmem List.mem_cons_self
  have hpath : ofTaskPath (root.join (.ofNames names)) = ofTaskPath (.ofNames names) := by
    rw [ofTaskPath, ofTaskPath, Path.fileName?_join hroot h,
      any_parentNames_join hroot h fun s hs => List.not_mem_of_not_mem_cons (hnames s hs),
      Path.parentNames_join hroot h, List.contains_append, hhandlers, Bool.false_or]
  cases document with
  | sequence items => rw [ofDocument, ofDocument, hpath]
  | _ => rfl

end FileKind

/-! ### Files below a directory -/

namespace FileTree

variable {t : FileTree} {c : Config} {g : Registry} {root : Path} {directory : Place}
  {files : List Path}

theorem keepsOrder_join (hroot : root.octets ≠ [])
    (hfiles : ∀ p ∈ files, ∃ names, IsDescent names ∧ p = .ofNames names) :
    KeepsOrder root.join files := by
  intro p hp q hq
  obtain ⟨names, hnames, rfl⟩ := hfiles p hp
  obtain ⟨names', hnames', rfl⟩ := hfiles q hq
  exact Path.compareParts_join hroot hnames hnames'

variable {φ : Path → Path}

theorem sameParts_map {p q : Path} (h : (φ p).compareParts (φ q) = p.compareParts q) :
    (φ p).sameParts (φ q) = p.sameParts q := by
  rw [Bool.eq_iff_iff, Path.sameParts_iff, Path.sameParts_iff, ← Path.compareParts_eq_eq_iff, h,
    Path.compareParts_eq_eq_iff]

theorem dropRepeatedAfter_map : ∀ {l : List Path} {last : Path}, KeepsOrder φ (last :: l) →
    sortedPaths.dropRepeatedAfter (φ last) (l.map φ) =
      (sortedPaths.dropRepeatedAfter last l).map φ := by
  intro l
  induction l with
  | nil =>
    intro last _
    rfl
  | cons p l ih =>
    intro last h
    have hp : p ∈ last :: p :: l := List.mem_cons_of_mem last List.mem_cons_self
    rw [List.map_cons, sortedPaths.dropRepeatedAfter, sortedPaths.dropRepeatedAfter,
      sameParts_map (h p hp last List.mem_cons_self)]
    split
    · refine ih fun q hq r hr => h q ?_ r ?_
      · exact List.mem_cons.mpr ((List.mem_cons.mp hq).imp_right (List.mem_cons_of_mem p))
      · exact List.mem_cons.mpr ((List.mem_cons.mp hr).imp_right (List.mem_cons_of_mem p))
    · rw [List.map_cons, ih fun q hq r hr =>
        h q (List.mem_cons_of_mem last hq) r (List.mem_cons_of_mem last hr)]

/-- Sorting keeps to a map that keeps the order. -/
theorem sortedPaths_map (h : KeepsOrder φ files) :
    sortedPaths (files.map φ) = (sortedPaths files).map φ := by
  have hsort : (files.map φ).mergeSort comesBefore = (files.mergeSort comesBefore).map φ := by
    refine (List.map_mergeSort fun p hp q hq => ?_).symm
    rw [comesBefore, comesBefore, h p hp q hq]
  have hsorted : KeepsOrder φ (files.mergeSort comesBefore) := fun p hp q hq =>
    h p (List.mem_mergeSort.mp hp) q (List.mem_mergeSort.mp hq)
  rw [sortedPaths, sortedPaths, hsort]
  cases hl : files.mergeSort comesBefore with
  | nil => rfl
  | cons p l =>
    rw [hl] at hsorted
    rw [List.map_cons, sortedPaths.dropRepeated, sortedPaths.dropRepeated, List.map_cons,
      dropRepeatedAfter_map hsorted]

/-- The files to lint below a directory, sorted, as paths from there. -/
def listedBelow (t : FileTree) (c : Config) (directory : Place) :
    Except DiscoveryError (List Path) := do
  let filter ← FileFilter.ofPatterns c.includes c.excludes
  let found ← t.visitedBelow directory
  return sortedPaths ((found.map .ofNames).filter filter.takes)

theorem exists_of_mem_listedBelow (hfiles : t.listedBelow c directory = .ok files) :
    ∀ p ∈ files, ∃ names ∈ t.filesBelow directory, p = .ofNames names := by
  intro p hp
  rw [listedBelow] at hfiles
  cases hfilter : FileFilter.ofPatterns c.includes c.excludes with
  | error e =>
    rw [hfilter] at hfiles
    cases hfiles
  | ok filter =>
    cases hfound : t.visitedBelow directory with
    | error e =>
      rw [hfilter, hfound] at hfiles
      cases hfiles
    | ok found =>
      rw [hfilter, hfound] at hfiles
      cases hfiles
      obtain ⟨names, hnames, rfl⟩ :=
        List.mem_map.mp (List.mem_filter.mp (mem_of_mem_sortedPaths hp)).1
      exact ⟨names, mem_filesBelow_of_mem_visitedBelow hfound hnames, rfl⟩

theorem filter_join (hroot : root.octets ≠ []) (filter : FileFilter) {found : List Place}
    (hfound : ∀ names ∈ found, IsDescent names) :
    ((found.map fun names => root.join (.ofNames names)).filter fun p =>
        filter.takes (matchPath root p)) =
      ((found.map .ofNames).filter filter.takes).map root.join := by
  rw [List.filter_map, List.filter_map, List.map_map]
  congr 1
  refine List.filter_congr fun names hnames => ?_
  rw [Function.comp_apply, Function.comp_apply, matchPath_join hroot (hfound names hnames)]

/-- **A root finds the files below its directory**, under its own spelling. -/
theorem discover_of_directory (ht : t.WellFormed) (hroot : root ≠ inputRoot)
    (h : t.locate true root = .ok ⟨directory, some .directory⟩) :
    t.discover c [root] = (t.listedBelow c directory).map fun files => files.map root.join := by
  have hne := octets_ne_nil_of_locate h
  have hdiscover : t.discover c [root] =
      (t.select c.includes c.excludes root).map fun l => sortedPaths l := by
    rw [discover]
    cases hselect : t.select c.includes c.excludes root with
    | error e => simp [hselect, Except.map]
    | ok l => simp [hselect, Except.map]
  rw [hdiscover, select, listedBelow, walk_of_directory hroot h]
  cases FileFilter.ofPatterns c.includes c.excludes with
  | error e => rfl
  | ok filter =>
    cases hfound : t.visitedBelow directory with
    | error e => rfl
    | ok found =>
      have hdescent : ∀ names ∈ found, IsDescent names := fun names hnames =>
        (descends_of_mem_filesBelow ht (node?_of_locate h)
          (mem_filesBelow_of_mem_visitedBelow hfound hnames)).descent
      show Except.ok (sortedPaths _) = Except.ok (List.map _ (sortedPaths _))
      rw [filter_join hne filter hdescent, sortedPaths_map]
      refine keepsOrder_join hne fun p hp => ?_
      obtain ⟨names, hnames, rfl⟩ := List.mem_map.mp (List.mem_filter.mp hp).1
      exact ⟨names, hdescent names hnames, rfl⟩

/-! ### Loading below a root -/

/-- Loads a file below a root, under its path from there. -/
def loadBelow (t : FileTree) (root p : Path) : Except LoadError PlaybookFile :=
  match t.readText (root.join p) with
  | .error cause => .error (.unreadable p cause)
  | .ok content => PlaybookFile.parse p content

theorem bearsPath_loadBelow (t : FileTree) (root p : Path) :
    LoadResult.BearsPath { path := p, result := t.loadBelow root p } := by
  rw [loadBelow]
  cases t.readText (root.join p) with
  | error cause => exact bearsPath_unreadable p cause
  | ok content => exact bearsPath_parse p content

theorem moved_load (hroot : root.octets ≠ []) {names : Place} (h : IsDescent names)
    (hnames : ∀ s ∈ root.nameTexts, s ∉ nonTaskDirectories) :
    Moved root.join (t.loadBelow root (.ofNames names)) (t.load (root.join (.ofNames names))) := by
  rw [loadBelow, load]
  cases t.readText (root.join (.ofNames names)) with
  | error cause => exact .error (.unreadable (.ofNames names) cause)
  | ok content => exact PlaybookFile.moved_parse (FileKind.ofTaskPath_join hroot h hnames) content

/-- **What is read from a file does not depend on the root** by which it is reached, unless the path
is too long. -/
theorem readText_join {root' : Path} (h : t.locate true root = .ok ⟨directory, some .directory⟩)
    (h' : t.locate true root' = .ok ⟨directory, some .directory⟩) {names : Place}
    (hnames : t.Descends directory names)
    (hlength : (root.join (.ofNames names)).octets.length ≤ pathLimit ↔
      (root'.join (.ofNames names)).octets.length ≤ pathLimit) :
    t.readText (root.join (.ofNames names)) = t.readText (root'.join (.ofNames names)) := by
  have hlocate : t.locate true (root.join (.ofNames names)) =
      t.locate true (root'.join (.ofNames names)) := by
    rw [locate_join h hnames, locate_join h' hnames]
    simp only [gt_iff_lt, ← Nat.not_le, hlength]
  rw [readText, readText, read, read, hlocate]

end FileTree

/-- The outcome with a root taken away from its paths. -/
def Outcome.relativeTo (root : Path) (o : Outcome) : Outcome :=
  o.mapPaths fun p => (p.stripParts? root).getD p

namespace FileTree

variable {t : FileTree} {c : Config} {g : Registry} {root : Path} {directory : Place}
  {files : List Path}

/-- **Taking the root away leaves an outcome that does not know the root**: that of the files as
they are loaded from there. -/
theorem relativeTo_lint (hroot : root.octets ≠ [])
    (hnames : ∀ s ∈ root.nameTexts, s ∉ nonTaskDirectories)
    (hfiles : ∀ p ∈ files, ∃ names, IsDescent names ∧ p = .ofNames names) (g : Registry) :
    (t.lint g (files.map root.join)).relativeTo root =
      Outcome.ofFiles g (t.loadBelow root) files := by
  have hmoved : ∀ p ∈ files, Moved root.join (t.loadBelow root p) (t.load (root.join p)) := by
    intro p hp
    obtain ⟨names, hdescent, rfl⟩ := hfiles p hp
    exact moved_load hroot hdescent hnames
  have hstrip : ∀ p ∈ files, (((root.join p).stripParts? root).getD (root.join p)) = p := by
    intro p hp
    obtain ⟨names, hdescent, rfl⟩ := hfiles p hp
    rw [Path.stripParts?_join hroot hdescent, Option.getD_some]
  have hpath := fun p (_ : p ∈ files) => bearsPath_loadBelow t root p
  rw [lint, Outcome.ofFiles_map hmoved hpath (keepsOrder_join hroot hfiles), Outcome.relativeTo,
    Outcome.mapPaths_mapPaths]
  exact Outcome.mapPaths_ofFiles hpath hstrip

/-! ### Two spellings of the working directory -/

/-- The working directory, from inside. -/
def hereRoot : Path :=
  .ofText "."

theorem locate_hereRoot (h : t.node? t.here = some .directory) :
    t.locate true hereRoot = .ok ⟨t.here, some .directory⟩ := by
  have hsegs : Path.segments hereRoot.octets = [Path.dot] := by decide
  have habsolute : hereRoot.isAbsolute = false := by decide
  rw [locate_eq_of_le (by decide) (by decide) (by decide), hsegs, habsolute,
    if_neg Bool.false_ne_true]
  show t.followSegments true _ t.here [Path.dot] = _
  rw [followSegments, if_neg (by simp [h]), if_pos (by decide), followSegments, h]

/-- The outcomes under two roots differ in nothing but the roots. -/
theorem relativeTo_lint_eq {root' : Path} (ht : t.WellFormed)
    (h : t.locate true root = .ok ⟨directory, some .directory⟩)
    (h' : t.locate true root' = .ok ⟨directory, some .directory⟩)
    (hnames : ∀ s ∈ root.nameTexts, s ∉ nonTaskDirectories)
    (hnames' : ∀ s ∈ root'.nameTexts, s ∉ nonTaskDirectories)
    (hlength : ∀ names ∈ t.filesBelow directory,
      ((root.join (.ofNames names)).octets.length ≤ pathLimit ↔
        (root'.join (.ofNames names)).octets.length ≤ pathLimit))
    (hfiles : t.listedBelow c directory = .ok files) (g : Registry) :
    (t.lint g (files.map root.join)).relativeTo root =
      (t.lint g (files.map root'.join)).relativeTo root' := by
  have hbelow : ∀ p ∈ files, ∃ names ∈ t.filesBelow directory,
      t.Descends directory names ∧ p = .ofNames names := by
    intro p hp
    obtain ⟨names, hmem, rfl⟩ := exists_of_mem_listedBelow hfiles p hp
    exact ⟨names, hmem, descends_of_mem_filesBelow ht (node?_of_locate h) hmem, rfl⟩
  have hdescent : ∀ p ∈ files, ∃ names, IsDescent names ∧ p = .ofNames names := by
    intro p hp
    obtain ⟨names, -, hdescends, rfl⟩ := hbelow p hp
    exact ⟨names, hdescends.descent, rfl⟩
  -- both sides become the outcome of loading below the root, which only reads under it
  rw [relativeTo_lint (octets_ne_nil_of_locate h) hnames hdescent,
    relativeTo_lint (octets_ne_nil_of_locate h') hnames' hdescent]
  refine Outcome.ofFiles_congr fun p hp => ?_
  obtain ⟨names, hmem, hdescends, rfl⟩ := hbelow p hp
  rw [loadBelow, loadBelow, readText_join h h' hdescends (hlength names hmem)]

/-- **An absolute root gives the outcome of the working directory**, up to the root in the paths,
unless a name in it rules out lists of tasks.  The same files are found, so the same violations and
failures are reported, and the run passes from both roots or from neither.  The kind of each file is
the same too, if no directory in the root is for handlers. -/
theorem outcome_eq_of_spelling (ht : t.WellFormed) (habsolute : root.isAbsolute = true)
    (hroot : t.locate true root = .ok ⟨t.here, some .directory⟩)
    (hnames : ∀ s ∈ root.nameTexts, s ∉ nonTaskDirectories)
    (hlength : ∀ names ∈ t.filesBelow t.here,
      ((root.join (.ofNames names)).octets.length ≤ pathLimit ↔
        (hereRoot.join (.ofNames names)).octets.length ≤ pathLimit))
    (c : Config) (g : Registry) :
    ((t.discover c [root]).map fun files => (t.lint g files).relativeTo root) =
        ((t.discover c [hereRoot]).map fun files => (t.lint g files).relativeTo hereRoot) ∧
      ((t.discover c [root]).map fun files => (t.lint g files).passed) =
        ((t.discover c [hereRoot]).map fun files => (t.lint g files).passed) ∧
      ("handlers" ∉ root.nameTexts → ∀ names, IsDescent names → ∀ document,
        FileKind.ofDocument (root.join (.ofNames names)) document =
          FileKind.ofDocument (.ofNames names) document) := by
  have hhere := locate_hereRoot (node?_of_locate hroot)
  have hne := octets_ne_nil_of_locate hroot
  have hinput : root ≠ inputRoot := by
    rintro rfl
    cases habsolute
  rw [discover_of_directory ht hinput hroot, discover_of_directory ht (by decide) hhere]
  have heq : ∀ files, t.listedBelow c t.here = .ok files →
      (t.lint g (files.map root.join)).relativeTo root =
        (t.lint g (files.map hereRoot.join)).relativeTo hereRoot := fun files hfiles =>
    relativeTo_lint_eq ht hroot hhere hnames (by decide) hlength hfiles g
  refine ⟨?_, ?_, ?_⟩
  · cases hfiles : t.listedBelow c t.here with
    | error e => rfl
    | ok files => exact congrArg Except.ok (heq files hfiles)
  · cases hfiles : t.listedBelow c t.here with
    | error e => rfl
    | ok files =>
      have hpassed := congrArg Outcome.passed (heq files hfiles)
      rw [Outcome.relativeTo, Outcome.relativeTo, Outcome.passed_mapPaths,
        Outcome.passed_mapPaths] at hpassed
      exact congrArg Except.ok hpassed
  · intro hhandlers names hdescent document
    refine FileKind.ofDocument_join hne hdescent (fun s hs => ?_) document
    rw [List.mem_cons, not_or]
    exact ⟨fun heq => hhandlers (heq ▸ hs), hnames s hs⟩

/-- A working directory with the given name, in which a task mails to a foreign address. -/
def leakIn (name : String) : FileTree :=
  { nodes :=
      [([Text.Utf8.encode name], .directory),
       ([Text.Utf8.encode name, Text.Utf8.encode "x.yml"],
        .file (Text.Utf8.encode "- mail:\n    to: x@evil.org\n"))]
    here := [Text.Utf8.encode name] }

/-- The file in that directory, from there. -/
def leak : Path :=
  .ofNames [Text.Utf8.encode "x.yml"]

theorem wellFormed_leakIn_srv : (leakIn "srv").WellFormed :=
  ⟨fun e he => ⟨by revert e; decide, by revert e; decide⟩, by decide, by decide⟩

theorem outcome_eq_of_spelling_leakIn_srv :
    (leakIn "srv").WellFormed ∧
      (leakIn "srv").locate true (.ofText "/srv") = .ok ⟨(leakIn "srv").here, some .directory⟩ ∧
      ((leakIn "srv").discover {} [.ofText "/srv"]).map (fun files =>
          ((leakIn "srv").lint .builtin files).relativeTo (.ofText "/srv")) =
        ((leakIn "srv").discover {} [hereRoot]).map (fun files =>
          ((leakIn "srv").lint .builtin files).relativeTo hereRoot) ∧
      ∀ document, FileKind.ofDocument ((Path.ofText "/srv").join leak) document =
        FileKind.ofDocument leak document := by
  have hroot : (leakIn "srv").locate true (.ofText "/srv") =
      .ok ⟨(leakIn "srv").here, some .directory⟩ := by decide
  obtain ⟨houtcome, -, hkind⟩ := outcome_eq_of_spelling wellFormed_leakIn_srv (by decide) hroot
    (by decide) (by decide) {} .builtin
  exact ⟨wellFormed_leakIn_srv, hroot, houtcome,
    hkind (by decide) [Text.Utf8.encode "x.yml"] ⟨by decide, by decide⟩⟩

theorem wellFormed_leakIn_vars : (leakIn "vars").WellFormed :=
  ⟨fun e he => ⟨by revert e; decide, by revert e; decide⟩, by decide, by decide⟩

theorem listedBelow_singleton {c : Config} (h : t.visitedBelow directory = .ok [names])
    (htakes : ((FileFilter.ofPatterns c.includes c.excludes).map fun filter =>
      filter.takes (.ofNames names)) = .ok true) :
    t.listedBelow c directory = .ok [.ofNames names] := by
  cases hfilter : FileFilter.ofPatterns c.includes c.excludes with
  | error e =>
    rw [hfilter] at htakes
    cases htakes
  | ok filter =>
    rw [hfilter] at htakes
    have htaken : filter.takes (.ofNames names) = true := Except.ok.inj htakes
    rw [listedBelow, hfilter, h]
    show Except.ok (sortedPaths ([Path.ofNames names].filter filter.takes)) = _
    rw [List.filter_cons_of_pos htaken, List.filter_nil,
      sortedPaths_of_pairwise (List.pairwise_singleton _ _)]
    rfl

theorem takes_leak : ((FileFilter.ofPatterns ({} : Config).includes ({} : Config).excludes).map
    fun filter => filter.takes leak) = .ok true := by
  decide +kernel

theorem listedBelow_leakIn_srv :
    (leakIn "srv").listedBelow {} (leakIn "srv").here = .ok [leak] :=
  listedBelow_singleton (by decide +kernel) takes_leak

theorem listedBelow_leakIn_vars :
    (leakIn "vars").listedBelow {} (leakIn "vars").here = .ok [leak] :=
  listedBelow_singleton (by decide +kernel) takes_leak

/-- What is a leak from inside a directory `vars` is none if the directory is named. -/
theorem passed_ne_of_vars :
    ((leakIn "vars").discover {} [.ofText "/vars"]).map (fun files =>
        ((leakIn "vars").lint .builtin files).passed) ≠
      ((leakIn "vars").discover {} [hereRoot]).map fun files =>
        ((leakIn "vars").lint .builtin files).passed := by
  have hroot : (leakIn "vars").locate true (.ofText "/vars") =
      .ok ⟨(leakIn "vars").here, some .directory⟩ := by decide
  have hhere := locate_hereRoot (node?_of_locate hroot)
  rw [discover_of_directory wellFormed_leakIn_vars (by decide) hroot,
    discover_of_directory wellFormed_leakIn_vars (by decide) hhere, listedBelow_leakIn_vars]
  intro heq
  have hpassed : ((leakIn "vars").lint .builtin [(Path.ofText "/vars").join leak]).passed =
      ((leakIn "vars").lint .builtin [hereRoot.join leak]).passed := Except.ok.inj heq
  have hclean : ((leakIn "vars").lint .builtin [(Path.ofText "/vars").join leak]).passed =
      true := by
    rw [passed_lint_iff]
    decide +kernel
  rw [hclean, eq_comm, passed_lint_iff] at hpassed
  have hleak := (hpassed _ List.mem_cons_self).1
  revert hleak
  decide +kernel

/-! ### A root too long -/

/-- **A file below a root too long for it fails.** -/
theorem failureAt?_of_tooLong (h : t.locate true root = .ok ⟨directory, some .directory⟩)
    (hnames : t.Descends directory names)
    (hlong : pathLimit < (root.join (.ofNames names)).octets.length) :
    t.failureAt? (root.join (.ofNames names)) =
      some { path := root.join (.ofNames names),
             error := .unreadable (root.join (.ofNames names)) .nameTooLong } := by
  have hlocate := locate_join h hnames
  rw [if_pos hlong] at hlocate
  rw [failureAt?, load, readText, read, hlocate]

theorem followSegments_slashes {enter : Place → List (List UInt8) → Except FileError Located}
    (hplace : t.node? directory = some .directory) (n : Nat) (segs : List (List UInt8)) :
    t.followSegments true enter directory (List.replicate n [] ++ segs) =
      t.followSegments true enter directory segs := by
  induction n with
  | zero => rfl
  | succ n ih =>
    rw [List.replicate_succ, List.cons_append, followSegments, if_neg (by simp [hplace]),
      if_pos (by decide), ih]

/-- The directory `srv`, with as many slashes before it as a path can have. -/
def longRoot : Path :=
  ⟨List.replicate 4092 Path.slash ++ Text.Utf8.encode "srv"⟩

theorem length_longRoot : longRoot.octets.length = pathLimit := by
  rw [longRoot, List.length_append, List.length_replicate]
  decide

theorem segments_longRoot :
    Path.segments longRoot.octets = List.replicate 4092 [] ++ [Text.Utf8.encode "srv"] := by
  rw [longRoot, Path.segments_slashes]
  congr 1

theorem isAbsolute_longRoot : longRoot.isAbsolute = true := by
  rw [longRoot, Path.isAbsolute, List.replicate_succ]
  rfl

theorem locate_longRoot :
    (leakIn "srv").locate true longRoot = .ok ⟨(leakIn "srv").here, some .directory⟩ := by
  have hnul : longRoot.octets.contains 0 = false := by
    rw [longRoot, List.contains_append, List.contains_replicate]
    decide
  have hne : longRoot.octets ≠ [] := List.ne_nil_of_length_pos (by rw [length_longRoot]; decide)
  rw [locate_eq_of_le hne hnul (Nat.le_of_eq length_longRoot), isAbsolute_longRoot, if_pos rfl,
    segments_longRoot]
  show (leakIn "srv").followSegments true _ [] _ = _
  rw [followSegments_slashes rfl]
  rfl

theorem nameTexts_longRoot : longRoot.nameTexts = ["srv"] := by
  have hparts : longRoot.parts = [.root, .name (Text.Utf8.encode "srv")] := by
    rw [Path.parts_eq_append, isAbsolute_longRoot, if_pos rfl, segments_longRoot,
      List.filterMap_append, List.filterMap_replicate_of_none rfl]
    rfl
  rw [Path.nameTexts, hparts]
  decide

theorem failures_lint_singleton (t : FileTree) (g : Registry) (p : Path) :
    (t.lint g [p]).failures = (t.failureAt? p).toList := by
  rw [lint_eq]
  cases h : t.failureAt? p with
  | none => simp [h]
  | some x => simp [h]

/-- A root as long as a path can be has no file below it that can be read. -/
theorem outcome_ne_of_longRoot :
    ((leakIn "srv").discover {} [longRoot]).map (fun files =>
        ((leakIn "srv").lint .builtin files).relativeTo longRoot) ≠
      ((leakIn "srv").discover {} [hereRoot]).map fun files =>
        ((leakIn "srv").lint .builtin files).relativeTo hereRoot := by
  have hhere := locate_hereRoot (node?_of_locate locate_longRoot)
  have hinput : longRoot ≠ inputRoot := by
    intro heq
    have habsolute := isAbsolute_longRoot
    rw [heq] at habsolute
    cases habsolute
  rw [discover_of_directory wellFormed_leakIn_srv hinput locate_longRoot,
    discover_of_directory wellFormed_leakIn_srv (by decide) hhere, listedBelow_leakIn_srv]
  intro heq
  have hfailures : ((leakIn "srv").lint .builtin [longRoot.join leak]).failures.map _ =
      ((leakIn "srv").lint .builtin [hereRoot.join leak]).failures.map _ :=
    congrArg Outcome.failures (Except.ok.inj heq)
  have hdescends : (leakIn "srv").Descends (leakIn "srv").here [Text.Utf8.encode "x.yml"] :=
    descends_of_mem_filesBelow wellFormed_leakIn_srv (node?_of_locate locate_longRoot) (by decide)
  have hfails : (leakIn "srv").failureAt? (longRoot.join leak) = some _ :=
    failureAt?_of_tooLong locate_longRoot hdescends (by decide +kernel)
  have hloads : (leakIn "srv").failureAt? (hereRoot.join leak) = none := by decide +kernel
  rw [failures_lint_singleton, failures_lint_singleton, hfails, hloads] at hfailures
  cases hfailures

/-- **A name in the root may change the outcome**, and the kind of a file, and so may its length. -/
theorem outcome_ne_of_spelling :
    (¬∀ (t : FileTree) (root : Path) (c : Config) (g : Registry), t.WellFormed →
      root.isAbsolute = true → t.locate true root = .ok ⟨t.here, some .directory⟩ →
        c.fault? = none → Registry.ofConfig c = .ok g →
          ((t.discover c [root]).map fun files => (t.lint g files).passed) =
            ((t.discover c [hereRoot]).map fun files => (t.lint g files).passed)) ∧
      (∀ s ∈ "handlers" :: nonTaskDirectories,
        FileKind.ofDocument (((Path.ofText "/").join (.ofText s)).join leak)
            (.sequence [.mapping [(.text "mail", .null)]]) ≠
          FileKind.ofDocument leak (.sequence [.mapping [(.text "mail", .null)]])) ∧
      ¬∀ (t : FileTree) (root : Path) (c : Config) (g : Registry), t.WellFormed →
        root.isAbsolute = true → t.locate true root = .ok ⟨t.here, some .directory⟩ →
          (∀ s ∈ root.nameTexts, s ∉ nonTaskDirectories) →
            c.fault? = none → Registry.ofConfig c = .ok g →
              ((t.discover c [root]).map fun files => (t.lint g files).relativeTo root) =
                ((t.discover c [hereRoot]).map fun files =>
                  (t.lint g files).relativeTo hereRoot) := by
  have hfault : ({} : Config).fault? = none := by decide +kernel
  refine ⟨fun h => passed_ne_of_vars ?_, by decide, fun h => outcome_ne_of_longRoot ?_⟩
  · exact h (leakIn "vars") (.ofText "/vars") {} .builtin wellFormed_leakIn_vars (by decide)
      (by decide) hfault rfl
  · refine h (leakIn "srv") longRoot {} .builtin wellFormed_leakIn_srv isAbsolute_longRoot
      locate_longRoot ?_ hfault rfl
    rw [nameTexts_longRoot]
    decide

end FileTree

end PlaybookPolicy
