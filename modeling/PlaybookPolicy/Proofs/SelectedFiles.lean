import PlaybookPolicy.Proofs.FilePath
import PlaybookPolicy.Proofs.FoundFiles
import PlaybookPolicy.Proofs.PatternMatching

/-!
# The files that patterns select

A walk comes by the root itself or, if that is a directory, by what the ignore files let it see
below.  Patterns choose among the files it comes by, and see of a path what stands below the root:
that does not depend on how the root is spelled.  The pattern of what belongs to a repository itself
is always among those of files to leave; on the path of a file it matches just the names below
`.git`.

## Main definitions

* `FileTree.ComesBy` — what a walk comes by, files or not.

## Main results

* `matches_repositoryPattern_iff_name` — **a file below `.git` is left, and for that no other.**
* `matchPath_root`, `matchPath_names` — what patterns see of a root and of what is below it.
* `FileTree.mem_walk_iff` — a walk finds the files that it comes by.
* `FileTree.mem_select_iff` — **which files a walk selects.**
-/

namespace PlaybookPolicy

/-! ### What patterns see -/

theorem matches_repositoryPattern_iff_name {p : Path} (hp : p.EndsInPart) :
    PatternMatches repositoryPattern p ↔ .name repositoryName ∈ p.parts.dropLast := by
  have hname : IsEntryName repositoryName := by decide
  rw [matches_repositoryPattern_iff, Path.name_mem_dropLast_parts_iff hp hname,
    Path.mem_dropLast_segments_iff hname.slash_notMem]

variable {root p : Path} {names : Place}

/-- Of a root that leads to a file, patterns see the path without a leading `.`. -/
theorem matchPath_root (h : root.EndsInPart) : matchPath root root = root.withoutHere := by
  simp only [matchPath, Path.stripParts?_self h]
  rfl

/-- Below a root, the empty one included, patterns see the names alone. -/
theorem matchPath_names (h : IsDescent names) :
    matchPath root (root.join (.ofNames names)) = .ofNames names := by
  by_cases hroot : root.octets = []
  · have hparts : root.parts = [] := by
      rw [Path.parts_eq_append, Path.isAbsolute, hroot]
      rfl
    have hjoin : root.join (.ofNames names) = .ofNames names := by
      rw [Path.join, if_pos (by simp [hroot])]
    have hstrip : (Path.ofNames names).stripParts? root = some (.ofNames names) := by
      rw [Path.stripParts?, hparts]
      exact congrArg some (Path.ofSegments_segments _)
    simp only [matchPath, hjoin, hstrip, ite_self, Path.stripParts?_here h, Option.getD_none]
  · exact matchPath_join hroot h

/-! ### Patterns of a list -/

/-- Texts of patterns are read, and match what one of them does. -/
theorem exists_mapM_globFor {texts : List String} (h : ∀ s ∈ texts, ∃ g, Glob.parse s = .ok g) :
    ∃ globs, texts.mapM globFor = .ok globs ∧ (globs.isEmpty = texts.isEmpty) ∧
      ∀ p, (globs.any fun g => g.isMatch p) = true ↔ ∃ s ∈ texts, PatternMatches s p := by
  induction texts with
  | nil => exact ⟨[], rfl, rfl, by simp⟩
  | cons s texts ih =>
    obtain ⟨g, hg⟩ := h s List.mem_cons_self
    obtain ⟨globs, hglobs, -, hany⟩ := ih fun s hs => h s (List.mem_cons_of_mem _ hs)
    refine ⟨g :: globs, ?_, rfl, fun p => ?_⟩
    · rw [List.mapM_cons, hglobs, globFor, hg]
      rfl
    · rw [List.any_cons, Bool.or_eq_true, hany, ← patternMatches_iff hg]
      simp

theorem exists_ofPatterns {includes excludes : List String}
    (h : ∀ s ∈ includes ++ excludes, ∃ g, Glob.parse s = .ok g) :
    ∃ filter, FileFilter.ofPatterns includes excludes = .ok filter ∧
      ∀ p, filter.takes p = true ↔
        (includes = [] ∨ ∃ s ∈ includes, PatternMatches s p) ∧
          (¬∃ s ∈ excludes, PatternMatches s p) ∧ ¬PatternMatches repositoryPattern p := by
  have hrepository : ∃ g, Glob.parse repositoryPattern = .ok g := ⟨_, rfl⟩
  obtain ⟨taken, htaken, hempty, hany⟩ := exists_mapM_globFor fun s hs =>
    h s (List.mem_append_left _ hs)
  have hexcludes : ∀ s ∈ excludes ++ [repositoryPattern], ∃ g, Glob.parse s = .ok g := by
    intro s hs
    rcases List.mem_append.mp hs with hs | hs
    · exact h s (List.mem_append_right _ hs)
    · rwa [List.mem_singleton.mp hs]
  obtain ⟨left, hleft, -, hany'⟩ := exists_mapM_globFor hexcludes
  refine ⟨⟨taken, left⟩, ?_, fun p => ?_⟩
  · rw [FileFilter.ofPatterns, htaken, hleft]
    rfl
  · rw [FileFilter.takes, Bool.and_eq_true, Bool.or_eq_true, hempty, List.isEmpty_iff, hany,
      Bool.not_eq_true', ← Bool.not_eq_true, hany', ← not_or]
    simp [or_and_right, exists_or]

namespace FileTree

variable {t : FileTree} {directory : Place} {found : List Path}

/-! ### What a walk comes by -/

/-- A walk from a root comes by a path at which a node stands: by the root itself or, below a
directory, by an entry that is not left out and is in no directory that is. -/
inductive ComesBy (t : FileTree) (root : Path) : Path → Node → Prop
  | itself {place : Place} {node : Node} (hroot : root ≠ inputRoot)
      (hplace : t.locate true root = .ok ⟨place, some node⟩) : ComesBy t root root node
  | below {directory names : Place} {node : Node} (hroot : root ≠ inputRoot)
      (hdirectory : t.locate true root = .ok ⟨directory, some .directory⟩)
      (hnames : IsDescent names) (hnode : t.node? (directory ++ names) = some node)
      (hseen : t.isIgnored (directory ++ names) (node = .directory) = false)
      (hway : ∀ k, 0 < k → k < names.length →
        t.isIgnored (directory ++ names.take k) true = false) :
      ComesBy t root (root.join (.ofNames names)) node

theorem isVisited_iff :
    t.isVisited directory names = true ↔
      t.isIgnored (directory ++ names) false = false ∧
        ∀ k, 0 < k → k < names.length →
          t.isIgnored (directory ++ names.take k) true = false := by
  rw [isVisited, Bool.and_eq_true, Bool.not_eq_true', List.all_eq_true]
  refine and_congr_right fun _ => ⟨fun h k hpos hk => ?_, fun h n hn => ?_⟩
  · have hn := h (k - 1) (List.mem_range.mpr (by omega))
    rwa [Nat.sub_add_cancel hpos, Bool.not_eq_true'] at hn
  · rw [List.mem_range] at hn
    rw [Bool.not_eq_true']
    exact h (n + 1) (by omega) (by omega)

theorem mem_nodes_of_node? {place : Place} {node : Node} (hplace : place ≠ [])
    (h : t.node? place = some node) : (place, node) ∈ t.nodes := by
  rw [node?, if_neg (by simpa using hplace)] at h
  obtain ⟨l, m, hnodes, -⟩ := List.lookup_eq_some_iff.mp h
  rw [hnodes]
  simp

theorem mem_filesBelow_iff_node? (ht : t.WellFormed) (hnames : IsDescent names) :
    names ∈ t.filesBelow directory ↔
      ∃ content, t.node? (directory ++ names) = some (.file content) := by
  rw [mem_filesBelow_iff]
  refine exists_congr fun content => ⟨node?_of_mem ht, mem_nodes_of_node? ?_⟩
  simp [hnames.ne_nil]

/-- **A walk finds the files that it comes by.** -/
theorem mem_walk_iff (ht : t.WellFormed) (hwalk : t.walk root = .ok found) :
    p ∈ found ↔ ∃ content, t.ComesBy root p (.file content) := by
  constructor
  · intro hp
    by_cases hroot : root = inputRoot
    · rw [walk, if_pos hroot] at hwalk
      cases hwalk
      cases hp
    · rcases finds_of_mem_walk ht hwalk hp with
        ⟨rfl, place, content, hplace⟩ | ⟨directory, names, hplace, hdescends, -⟩
      · exact ⟨content, .itself hroot hplace⟩
      · -- the names that `finds_of_mem_walk` gives may be others: it does not say they were visited
        rw [walk_of_directory hroot hplace, visitedBelow] at hwalk
        split at hwalk
        · cases hwalk
          obtain ⟨names, hnames, rfl⟩ := List.mem_map.mp hp
          obtain ⟨hfile, hvisited⟩ := List.mem_filter.mp hnames
          obtain ⟨hseen, hway⟩ := isVisited_iff.mp hvisited
          have hbelow := descends_of_mem_filesBelow ht (node?_of_locate hplace) hfile
          obtain ⟨content, hcontent⟩ := hbelow.file
          exact ⟨content, .below hroot hplace hbelow.descent hcontent hseen hway⟩
        · cases hwalk
  · rintro ⟨content, hcomes⟩
    cases hcomes with
    | itself hroot hplace =>
      simp only [walk, if_neg hroot, hplace] at hwalk
      cases hwalk
      exact List.mem_singleton_self root
    | below hroot hplace hnames hnode hseen hway =>
      rw [walk_of_directory hroot hplace, visitedBelow] at hwalk
      split at hwalk
      · cases hwalk
        refine List.mem_map.mpr ⟨_, List.mem_filter.mpr ⟨?_, isVisited_iff.mpr ⟨hseen, hway⟩⟩, rfl⟩
        exact (mem_filesBelow_iff_node? ht hnames).mpr ⟨content, hnode⟩
      · cases hwalk

/-- What patterns see of a file does not end in a slash or in `.`. -/
theorem ComesBy.endsInPart {content : List UInt8} (h : t.ComesBy root p (.file content)) :
    (matchPath root p).EndsInPart := by
  cases h with
  | itself _ hplace =>
    have hroot := endsInPart_of_locate_file hplace
    rw [matchPath_root hroot]
    exact hroot.withoutHere
  | below _ _ hnames =>
    rw [matchPath_names hnames]
    exact Path.endsInPart_ofNames hnames

/-! ### What it selects -/

/-- **A walk selects the files** it comes by of which the patterns see a path that one of those to
take matches, if there are any, and none of those to leave, and in which `.git` is at most the last
name.  The patterns see the names below the root, however it is spelled; of a root that is a file
itself, its path without a leading `.`. -/
theorem mem_select_iff (ht : t.WellFormed) {includes excludes : List String}
    (hpatterns : ∀ s ∈ includes ++ excludes, ∃ g, Glob.parse s = .ok g)
    (hwalk : t.walk root = .ok found) :
    (∃ files, t.select includes excludes root = .ok files ∧ files.Sublist found ∧
      ∀ p, p ∈ files ↔
        (∃ content, t.ComesBy root p (.file content)) ∧
          (includes = [] ∨ ∃ s ∈ includes, PatternMatches s (matchPath root p)) ∧
          (¬∃ s ∈ excludes, PatternMatches s (matchPath root p)) ∧
          .name repositoryName ∉ (matchPath root p).parts.dropLast) ∧
      (∀ names, IsDescent names → matchPath root (root.join (.ofNames names)) = .ofNames names) ∧
      ∀ place content, t.locate true root = .ok ⟨place, some (.file content)⟩ →
        (.here ∉ root.parts → matchPath root root = root) ∧
          (matchPath root root).octets <:+ root.octets ∧
          (matchPath root root).parts = root.parts.filter (· != .here) := by
  refine ⟨?_, fun names => matchPath_names, fun place content hplace => ?_⟩
  · obtain ⟨filter, hfilter, htakes⟩ := exists_ofPatterns hpatterns
    refine ⟨found.filter fun p => filter.takes (matchPath root p), ?_, List.filter_sublist,
      fun p => ?_⟩
    · rw [select, hfilter, hwalk]
      rfl
    · rw [List.mem_filter, mem_walk_iff ht hwalk, htakes]
      refine and_congr_right ?_
      rintro ⟨content, hcomes⟩
      rw [matches_repositoryPattern_iff_name hcomes.endsInPart]
  · have hroot := endsInPart_of_locate_file hplace
    rw [matchPath_root hroot]
    exact ⟨Path.withoutHere_of_notMem, Path.withoutHere_suffix hroot, Path.parts_withoutHere hroot⟩

/-- A repository with a playbook in it and one in its data. -/
def repositoryTree : FileTree :=
  { nodes := [([repositoryName], .directory),
      ([repositoryName, Text.Utf8.encode "x.yml"], .file []),
      ([Text.Utf8.encode "site.yml"], .file [])]
    here := [] }

theorem wellFormed_repositoryTree : repositoryTree.WellFormed :=
  ⟨fun e he => ⟨by revert e; decide, by revert e; decide⟩, by decide, by decide⟩

theorem mem_select_iff_repositoryTree :
    repositoryTree.WellFormed ∧ (∀ s ∈ ["**/*.yml"] ++ [], ∃ g, Glob.parse s = .ok g) ∧
      repositoryTree.walk (.ofText ".") = .ok [.ofText "./.git/x.yml", .ofText "./site.yml"] ∧
        ∃ files, repositoryTree.select ["**/*.yml"] [] (.ofText ".") = .ok files ∧
          .ofText "./site.yml" ∈ files ∧ .ofText "./.git/x.yml" ∉ files := by
  have hpatterns : ∀ s ∈ ["**/*.yml"] ++ [], ∃ g, Glob.parse s = .ok g := by
    intro s hs
    rw [List.append_nil, List.mem_singleton] at hs
    rw [hs]
    exact ⟨_, rfl⟩
  have hwalk : repositoryTree.walk (.ofText ".") =
      .ok [.ofText "./.git/x.yml", .ofText "./site.yml"] := by decide +kernel
  obtain ⟨⟨files, hfiles, -, hmem⟩, -⟩ :=
    mem_select_iff wellFormed_repositoryTree hpatterns hwalk
  refine ⟨wellFormed_repositoryTree, hpatterns, hwalk, files, hfiles, ?_, fun hgit => ?_⟩
  · refine (hmem _).mpr ⟨(mem_walk_iff wellFormed_repositoryTree hwalk).mp (by simp),
      .inr ⟨_, List.mem_singleton_self _, _, rfl, by decide +kernel⟩, by simp, by decide +kernel⟩
  · exact absurd ((hmem _).mp hgit).2.2.2 (by decide +kernel)

end FileTree

end PlaybookPolicy
