import PlaybookPolicy.Proofs.LoadedFile
import PlaybookPolicy.Proofs.StableSort
import PlaybookPolicy.Proofs.Traversal
import PlaybookPolicy.Proofs.TreePlaces

/-!
# The files of several roots

The list of files to lint is in strict order by parts, so no spelling of a path is in it twice.
But one file has several spellings, since each root puts its own before the names: the file
`site.yml` is found as `./site.yml` below `.` and as `site.yml` if it is a root itself, and these
differ in their parts.  A file is listed once if the roots agree on spelling: a root that lies in
another one is spelled as that one with names behind it.

## Main definitions

* `FileTree.Finds` — a root finds a path.
* `FileTree.AgreeOnSpelling` — roots in other roots are spelled as these with names behind them.

## Main results

* `FileTree.pairwise_sortedPaths` — the list is in strict order.
* `FileTree.exists_root_of_mem_discover` — every path in it is found by a root.
* `FileTree.discover_distinct` — **no spelling is listed twice, and no file if the roots agree on
  spelling.**
* `FileTree.discover_twice` — without that a file may be listed twice.
-/

namespace PlaybookPolicy

namespace FileTree

variable {t : FileTree} {c : Config} {roots files : List Path} {root p : Path}

/-! ### Strict order -/

theorem lt_of_comesBefore {q : Path} (hle : comesBefore p q = true)
    (hne : q.sameParts p = false) : p.compareParts q = .lt := by
  cases hcmp : p.compareParts q with
  | lt => rfl
  | eq =>
    rw [Path.compareParts_eq_eq_iff] at hcmp
    rw [Path.sameParts_iff.mpr hcmp.symm] at hne
    cases hne
  | gt =>
    rw [comesBefore, hcmp] at hle
    cases hle

theorem mem_of_mem_dropRepeatedAfter {l : List Path} {last : Path}
    (h : p ∈ sortedPaths.dropRepeatedAfter last l) : p ∈ l := by
  induction l generalizing last with
  | nil => cases h
  | cons q l ih =>
    rw [sortedPaths.dropRepeatedAfter] at h
    split at h
    · exact List.mem_cons_of_mem q (ih h)
    · rcases List.mem_cons.mp h with rfl | h
      · exact List.mem_cons_self
      · exact List.mem_cons_of_mem q (ih h)

theorem pairwise_dropRepeatedAfter : ∀ {l : List Path} {last : Path},
    (last :: l).Pairwise (fun p q => comesBefore p q = true) →
      (last :: sortedPaths.dropRepeatedAfter last l).Pairwise
        fun p q => p.compareParts q = .lt := by
  intro l
  -- whether a path is kept or not, what follows lies behind the last one that was
  induction l with
  | nil =>
    intro last _
    exact List.pairwise_singleton _ last
  | cons q l ih =>
    intro last h
    rw [sortedPaths.dropRepeatedAfter]
    split
    · exact ih (h.sublist (List.Sublist.cons_cons last (List.sublist_cons_self q l)))
    · next hne =>
      rw [Bool.not_eq_true] at hne
      have hq : last.compareParts q = .lt :=
        lt_of_comesBefore (List.rel_of_pairwise_cons h List.mem_cons_self) hne
      have htail := ih h.of_cons
      refine List.pairwise_cons.mpr ⟨?_, htail⟩
      intro r hr
      rcases List.mem_cons.mp hr with rfl | hr
      · exact hq
      · exact Std.TransCmp.lt_trans hq (List.rel_of_pairwise_cons htail hr)

/-- **The list of files is in strict order.** -/
theorem pairwise_sortedPaths (l : List Path) :
    (sortedPaths l).Pairwise fun p q => p.compareParts q = .lt := by
  have hsorted : (l.mergeSort comesBefore).Pairwise fun p q => comesBefore p q = true :=
    pairwise_mergeSort_isLE Path.compareParts l
  rw [sortedPaths]
  cases hl : l.mergeSort comesBefore with
  | nil => exact .nil
  | cons p m =>
    rw [hl] at hsorted
    exact pairwise_dropRepeatedAfter hsorted

theorem mem_of_mem_sortedPaths {l : List Path} (h : p ∈ sortedPaths l) : p ∈ l := by
  have hmem : p ∈ l.mergeSort comesBefore := by
    rw [sortedPaths] at h
    cases hl : l.mergeSort comesBefore with
    | nil =>
      rw [hl] at h
      cases h
    | cons q m =>
      rw [hl, sortedPaths.dropRepeated] at h
      rcases List.mem_cons.mp h with rfl | h
      · exact List.mem_cons_self
      · exact List.mem_cons_of_mem q (mem_of_mem_dropRepeatedAfter h)
  exact List.mem_mergeSort.mp hmem

/-! ### What a root finds -/

/-- The root finds the path: it is the root itself, or the root with names behind it that lead to a
file. -/
def Finds (t : FileTree) (root p : Path) : Prop :=
  (p = root ∧ ∃ place content, t.locate true root = .ok ⟨place, some (.file content)⟩) ∨
    ∃ directory names, t.locate true root = .ok ⟨directory, some .directory⟩ ∧
      t.Descends directory names ∧ p = root.join (.ofNames names)

/-- The names that a walk from a directory comes by. -/
def visitedBelow (t : FileTree) (directory : Place) : Except DiscoveryError (List Place) :=
  if (t.faultsAbove directory).isEmpty then
    .ok ((t.filesBelow directory).filter (t.isVisited directory))
  else .error (.faultyRules (t.faultsAbove directory))

theorem walk_of_directory {directory : Place} (hroot : root ≠ inputRoot)
    (h : t.locate true root = .ok ⟨directory, some .directory⟩) :
    t.walk root =
      (t.visitedBelow directory).map fun l => l.map fun names => root.join (.ofNames names) := by
  simp only [walk, visitedBelow, if_neg hroot, h]
  split <;> rfl

theorem mem_filesBelow_of_mem_visitedBelow {directory names : Place} {l : List Place}
    (hl : t.visitedBelow directory = .ok l) (hnames : names ∈ l) :
    names ∈ t.filesBelow directory := by
  rw [visitedBelow] at hl
  split at hl
  · cases hl
    exact (List.mem_filter.mp hnames).1
  · cases hl

theorem finds_of_mem_walk (ht : t.WellFormed) {l : List Path} (h : t.walk root = .ok l)
    (hp : p ∈ l) : t.Finds root p := by
  by_cases hinput : root = inputRoot
  · rw [walk, if_pos hinput] at h
    cases h
    cases hp
  · cases hlocate : t.locate true root with
    | error cause =>
      simp only [walk, if_neg hinput, hlocate] at h
      cases h
    | ok found =>
      obtain ⟨place, node?⟩ := found
      rcases node? with _ | ⟨content⟩ | _ | ⟨target⟩
      · simp only [walk, if_neg hinput, hlocate] at h
        cases h
      · simp only [walk, if_neg hinput, hlocate] at h
        cases h
        exact .inl ⟨List.mem_singleton.mp hp, place, content, hlocate⟩
      · rw [walk_of_directory hinput hlocate] at h
        cases hvisited : t.visitedBelow place with
        | error e =>
          rw [hvisited] at h
          cases h
        | ok names =>
          rw [hvisited] at h
          cases h
          obtain ⟨names, hmem, rfl⟩ := List.mem_map.mp hp
          exact .inr ⟨place, names, hlocate, descends_of_mem_filesBelow ht
            (node?_of_locate hlocate) (mem_filesBelow_of_mem_visitedBelow hvisited hmem), rfl⟩
      · simp only [walk, if_neg hinput, hlocate] at h
        cases h

theorem exists_walk_of_mem_select {includes excludes : List String} {l : List Path}
    (h : t.select includes excludes root = .ok l) (hp : p ∈ l) :
    ∃ m, t.walk root = .ok m ∧ p ∈ m := by
  rw [select] at h
  cases hfilter : FileFilter.ofPatterns includes excludes with
  | error e =>
    rw [hfilter] at h
    cases h
  | ok filter =>
    cases hwalk : t.walk root with
    | error e =>
      rw [hfilter, hwalk] at h
      cases h
    | ok m =>
      rw [hfilter, hwalk] at h
      cases h
      exact ⟨m, rfl, (List.mem_filter.mp hp).1⟩

theorem exists_of_discover (h : t.discover c roots = .ok files) :
    ∃ found, roots.mapM (t.select c.includes c.excludes) = .ok found ∧
      files = sortedPaths found.flatten := by
  rw [discover] at h
  cases hfound : roots.mapM (t.select c.includes c.excludes) with
  | error e =>
    rw [hfound] at h
    cases h
  | ok found =>
    rw [hfound] at h
    cases h
    exact ⟨found, rfl, rfl⟩

/-- **Every path in the list is found by a root.** -/
theorem exists_root_of_mem_discover (ht : t.WellFormed) (h : t.discover c roots = .ok files) :
    ∀ p ∈ files, ∃ root ∈ roots, t.Finds root p := by
  intro p hp
  obtain ⟨found, hfound, rfl⟩ := exists_of_discover h
  obtain ⟨root, hroot, l, hl, hpl⟩ :=
    (mem_flatten_iff_of_mapM_ok hfound).mp (mem_of_mem_sortedPaths hp)
  obtain ⟨m, hm, hpm⟩ := exists_walk_of_mem_select hl hpl
  exact ⟨root, hroot, finds_of_mem_walk ht hm hpm⟩

/-- A path that a root finds is spelled as the root with the names behind it that lead on from where
the root leads. -/
theorem Finds.spelling (h : t.Finds root p) {place : Place} (hp : t.LeadsTo p place) :
    ∃ directory names, t.LeadsTo root directory ∧ place = directory ++ names ∧
      p.parts = root.parts ++ names.map .name := by
  rcases h with ⟨rfl, -⟩ | ⟨directory, names, hroot, hnames, rfl⟩
  · exact ⟨place, [], hp, (List.append_nil place).symm, (List.append_nil _).symm⟩
  · exact ⟨directory, names, ⟨_, hroot⟩, place_of_locate_join hroot hnames hp,
      Path.parts_join (octets_ne_nil_of_locate hroot) hnames.descent⟩

/-! ### Roots that agree on spelling -/

/-- A root that leads to a place below the place of another is spelled as the other with the names
behind it. -/
def AgreeOnSpelling (t : FileTree) (roots : List Path) : Prop :=
  ∀ r ∈ roots, ∀ s ∈ roots, ∀ place names, t.LeadsTo r place → t.LeadsTo s (place ++ names) →
    s.parts = r.parts ++ names.map .name

theorem parts_eq_of_leadsTo {q : Path} {r s : Path} (hagree : t.AgreeOnSpelling roots)
    (hr : r ∈ roots) (hs : s ∈ roots) (hp : t.Finds r p) (hq : t.Finds s q) {place : Place}
    (hplace : t.LeadsTo p place) (hplace' : t.LeadsTo q place) : p.parts = q.parts := by
  obtain ⟨d, names, hd, rfl, hparts⟩ := hp.spelling hplace
  obtain ⟨d', names', hd', heq, hparts'⟩ := hq.spelling hplace'
  -- two directories above one place: one of the roots lies in the other
  rcases List.append_eq_append_iff.mp heq with ⟨m, rfl, rfl⟩ | ⟨m, rfl, rfl⟩
  · rw [hparts, hparts', hagree r hr s hs d m hd hd', List.map_append, List.append_assoc]
  · rw [hparts, hparts', hagree s hs r hr d' m hd' hd, List.map_append, List.append_assoc]

/-- **No spelling is listed twice, and no file if the roots agree on spelling.** -/
theorem discover_distinct (ht : t.WellFormed) (h : t.discover c roots = .ok files) :
    (files.Pairwise fun p q => p.compareParts q = .lt) ∧
      (t.AgreeOnSpelling roots → files.Pairwise fun p q =>
        ∀ place, ¬(t.LeadsTo p place ∧ t.LeadsTo q place)) := by
  have hstrict : files.Pairwise fun p q => p.compareParts q = .lt := by
    obtain ⟨found, -, rfl⟩ := exists_of_discover h
    exact pairwise_sortedPaths found.flatten
  refine ⟨hstrict, fun hagree => hstrict.imp_of_mem ?_⟩
  rintro p q hp hq hlt place ⟨hplace, hplace'⟩
  obtain ⟨r, hr, hfinds⟩ := exists_root_of_mem_discover ht h p hp
  obtain ⟨s, hs, hfinds'⟩ := exists_root_of_mem_discover ht h q hq
  have hparts := parts_eq_of_leadsTo hagree hr hs hfinds hfinds' hplace hplace'
  rw [Path.compareParts_eq_eq_iff.mpr hparts] at hlt
  cases hlt

/-! ### Roots that overlap -/

theorem sortedPaths_of_pairwise {l : List Path}
    (h : l.Pairwise fun p q => comesBefore p q = true) :
    sortedPaths l = sortedPaths.dropRepeated l := by
  rw [sortedPaths, List.mergeSort_of_pairwise h]

theorem discover_of_mapM {found : List (List Path)}
    (h : roots.mapM (t.select c.includes c.excludes) = .ok found) :
    t.discover c roots = .ok (sortedPaths found.flatten) := by
  rw [discover, h]
  rfl

/-- A directory with a playbook that lacks a collection. -/
def overlapTree : FileTree :=
  { nodes := [([Text.Utf8.encode "site.yml"], .file (Text.Utf8.encode "- hosts: all\n"))]
    here := [] }

theorem wellFormed_overlapTree : overlapTree.WellFormed :=
  ⟨fun e he => ⟨by revert e; decide, by revert e; decide⟩, by decide, by decide⟩

theorem place_of_locate {place place' : Place} {node? : Option Node}
    (h : t.locate true p = .ok ⟨place, node?⟩) (hp : t.LeadsTo p place') : place' = place := by
  obtain ⟨node?', h'⟩ := hp
  rw [h] at h'
  cases h'
  rfl

theorem agreeOnSpelling_overlapTree :
    overlapTree.AgreeOnSpelling [.ofText ".", .ofText "./site.yml"] := by
  have hhere : overlapTree.locate true (.ofText ".") = .ok ⟨[], some .directory⟩ := by decide
  have hsite : overlapTree.locate true (.ofText "./site.yml") =
      .ok ⟨[Text.Utf8.encode "site.yml"], some (.file (Text.Utf8.encode "- hosts: all\n"))⟩ := by
    decide
  intro r hr s hs place names hplace hnames
  rcases List.mem_pair.mp hr with rfl | rfl
  · cases place_of_locate hhere hplace
    rcases List.mem_pair.mp hs with rfl | rfl
    · cases place_of_locate hhere hnames
      rfl
    · cases place_of_locate hsite hnames
      decide
  · cases place_of_locate hsite hplace
    rcases List.mem_pair.mp hs with rfl | rfl
    · cases place_of_locate hhere hnames
    · have hnone : names = [] := by simpa using place_of_locate hsite hnames
      rw [hnone]
      rfl

theorem discover_distinct_overlapTree :
    overlapTree.WellFormed ∧
      overlapTree.AgreeOnSpelling [.ofText ".", .ofText "./site.yml"] ∧
        overlapTree.discover {} [.ofText ".", .ofText "./site.yml"] =
            .ok [.ofText "./site.yml"] ∧
          [Path.ofText "./site.yml"].Pairwise fun p q =>
            ∀ place, ¬(overlapTree.LeadsTo p place ∧ overlapTree.LeadsTo q place) := by
  have hmapM : [Path.ofText ".", .ofText "./site.yml"].mapM
      (overlapTree.select ({} : Config).includes ({} : Config).excludes) =
        .ok [[.ofText "./site.yml"], [.ofText "./site.yml"]] := by decide +kernel
  have hdiscover : overlapTree.discover {} [.ofText ".", .ofText "./site.yml"] =
      .ok [.ofText "./site.yml"] := by
    rw [discover_of_mapM hmapM, sortedPaths_of_pairwise (by decide +kernel)]
    decide +kernel
  exact ⟨wellFormed_overlapTree, agreeOnSpelling_overlapTree, hdiscover,
    (discover_distinct wellFormed_overlapTree hdiscover).2 agreeOnSpelling_overlapTree⟩

/-- **A file may be listed twice** if the roots do not agree on spelling. -/
theorem discover_twice :
    ¬∀ (t : FileTree) (c : Config) (roots files : List Path), t.WellFormed → c.fault? = none →
      t.discover c roots = .ok files → files.Pairwise fun p q =>
        ∀ place, ¬(t.LeadsTo p place ∧ t.LeadsTo q place) := by
  intro h
  have hmapM : [Path.ofText ".", .ofText "site.yml"].mapM
      (overlapTree.select ({} : Config).includes ({} : Config).excludes) =
        .ok [[.ofText "./site.yml"], [.ofText "site.yml"]] := by decide +kernel
  have hdiscover : overlapTree.discover {} [.ofText ".", .ofText "site.yml"] =
      .ok [.ofText "./site.yml", .ofText "site.yml"] := by
    rw [discover_of_mapM hmapM, sortedPaths_of_pairwise (by decide +kernel)]
    decide +kernel
  have hpairwise := h overlapTree {} _ _ wellFormed_overlapTree (by decide +kernel) hdiscover
  refine List.rel_of_pairwise_cons hpairwise List.mem_cons_self [Text.Utf8.encode "site.yml"] ?_
  exact ⟨⟨_, rfl⟩, ⟨_, rfl⟩⟩

end FileTree

end PlaybookPolicy
