import Mathlib.Data.List.Forall2
import PlaybookPolicy.Proofs.FoundFiles

/-!
# Roots in any order

The files of several roots are sorted, and of those that follow each other with the same parts only
the first is kept.  What is left is in strict order by parts, so it is determined, part by part, by
the set of what was found.  Hence neither the order of the roots nor their repetitions count.  Only
the spelling of a file that is kept may differ, if two roots find it with the same parts.

## Main definitions

* `FileTree.Yields` — the walk from a root yields a file.
* `FileTree.ListsFrom` — a list holds the files that some roots yield, in strict order.

## Main results

* `FileTree.exists_mem_sortedPaths` — what was found is kept, as far as its parts tell.
* `FileTree.forall₂_sameParts_of_pairwise` — a list in strict order is determined by what it holds.
* `FileTree.discover_of_same_roots` — **only the set of the roots counts.**
-/

namespace PlaybookPolicy

namespace FileTree

variable {t : FileTree} {c : Config} {roots roots' files files' : List Path} {p : Path}

/-! ### Strict order -/

/-- **A list in strict order is determined by what it holds**, part by part. -/
theorem forall₂_sameParts_of_pairwise {l m : List Path}
    (hl : l.Pairwise fun p q => p.compareParts q = .lt)
    (hm : m.Pairwise fun p q => p.compareParts q = .lt)
    (h : ∀ parts, parts ∈ l.map Path.parts ↔ parts ∈ m.map Path.parts) :
    List.Forall₂ (fun p q => p.sameParts q = true) l m := by
  have hstrict : ∀ {l : List Path}, (l.Pairwise fun p q => p.compareParts q = .lt) →
      (l.map Path.parts).Pairwise fun a b => Path.comparePartLists a b = .lt :=
    fun hl => hl.map Path.parts fun p q hpq => hpq
  have hirrefl : ∀ {p q : Path}, p.compareParts q = .lt → p.parts ≠ q.parts := by
    intro p q hpq heq
    rw [Path.compareParts_eq_eq_iff.mpr heq] at hpq
    cases hpq
  have hnodup : ∀ {l : List Path}, (l.Pairwise fun p q => p.compareParts q = .lt) →
      (l.map Path.parts).Nodup :=
    fun hl => hl.map Path.parts fun p q hpq => hirrefl hpq
  -- the parts are the same up to order, and a strict order leaves only one
  have hperm := (List.perm_ext_iff_of_nodup (hnodup hl) (hnodup hm)).mpr h
  have heq : l.map Path.parts = m.map Path.parts := by
    refine hperm.eq_of_pairwise ?_ (hstrict hl) (hstrict hm)
    intro a b ha hb hab hba
    obtain ⟨p, -, rfl⟩ := List.mem_map.mp ha
    obtain ⟨q, -, rfl⟩ := List.mem_map.mp hb
    have hgt : p.compareParts q = .gt := Std.OrientedCmp.gt_of_lt hba
    cases hgt.symm.trans hab
  rw [← List.forall₂_eq_eq_eq, List.forall₂_map_left_iff, List.forall₂_map_right_iff] at heq
  exact heq.imp fun p q hpq => Path.sameParts_iff.mpr hpq

/-! ### What a sorted list holds -/

/-- What is dropped has the parts of a path that is kept. -/
theorem exists_mem_dropRepeatedAfter {l : List Path} {last : Path} (hp : p ∈ last :: l) :
    ∃ q ∈ last :: sortedPaths.dropRepeatedAfter last l, q.sameParts p = true := by
  induction l generalizing last with
  | nil => exact ⟨p, hp, Path.sameParts_self p⟩
  | cons q l ih =>
    rw [sortedPaths.dropRepeatedAfter]
    rcases List.mem_cons.mp hp with rfl | hp
    · exact ⟨p, List.mem_cons_self, Path.sameParts_self p⟩
    · split
      · next hsame =>
        rcases List.mem_cons.mp hp with rfl | hp
        · exact ⟨last, List.mem_cons_self, by rw [Path.sameParts_comm, hsame]⟩
        · exact ih (List.mem_cons_of_mem last hp)
      · obtain ⟨r, hr, hrp⟩ := ih hp
        exact ⟨r, List.mem_cons_of_mem last hr, hrp⟩

theorem exists_mem_sortedPaths {l : List Path} (hp : p ∈ l) :
    ∃ q ∈ sortedPaths l, q.sameParts p = true := by
  have hmem : p ∈ l.mergeSort comesBefore := List.mem_mergeSort.mpr hp
  rw [sortedPaths]
  cases hl : l.mergeSort comesBefore with
  | nil =>
    rw [hl] at hmem
    cases hmem
  | cons q m =>
    rw [hl] at hmem
    exact exists_mem_dropRepeatedAfter hmem

/-! ### What roots yield -/

/-- The walk from the root yields the file: it finds it, and the patterns let it through. -/
def Yields (t : FileTree) (c : Config) (root p : Path) : Prop :=
  ∃ found, t.select c.includes c.excludes root = .ok found ∧ p ∈ found

/-- The list holds the files that some of the roots yield, in strict order. -/
structure ListsFrom (t : FileTree) (c : Config) (roots files : List Path) : Prop where
  /-- Files are in strict order by their parts. -/
  strict : files.Pairwise fun p q => p.compareParts q = .lt
  /-- Each file is yielded as it is spelled. -/
  yielded : ∀ p ∈ files, ∃ root ∈ roots, t.Yields c root p
  /-- Each file that is yielded is in the list, as far as its parts tell. -/
  complete : ∀ root ∈ roots, ∀ p, t.Yields c root p → ∃ q ∈ files, q.sameParts p = true

theorem listsFrom_of_discover (h : t.discover c roots = .ok files) :
    t.ListsFrom c roots files := by
  obtain ⟨found, hfound, rfl⟩ := exists_of_discover h
  refine ⟨pairwise_sortedPaths _, fun p hp => ?_, fun root hroot p hp => ?_⟩
  · exact (mem_flatten_iff_of_mapM_ok hfound).mp (mem_of_mem_sortedPaths hp)
  · exact exists_mem_sortedPaths ((mem_flatten_iff_of_mapM_ok hfound).mpr ⟨root, hroot, hp⟩)

theorem ListsFrom.congr (h : t.ListsFrom c roots files)
    (hroots : ∀ root, root ∈ roots ↔ root ∈ roots') : t.ListsFrom c roots' files := by
  refine ⟨h.strict, fun p hp => ?_, fun root hroot => h.complete root ((hroots root).mpr hroot)⟩
  obtain ⟨root, hroot, hyields⟩ := h.yielded p hp
  exact ⟨root, (hroots root).mp hroot, hyields⟩

/-- The parts of listed files are those of yielded ones. -/
theorem ListsFrom.mem_map_parts_iff (h : t.ListsFrom c roots files) {parts : List PathPart} :
    parts ∈ files.map Path.parts ↔ ∃ root ∈ roots, ∃ p, t.Yields c root p ∧ p.parts = parts := by
  rw [List.mem_map]
  constructor
  · rintro ⟨p, hp, hparts⟩
    obtain ⟨root, hroot, hyields⟩ := h.yielded p hp
    exact ⟨root, hroot, p, hyields, hparts⟩
  · rintro ⟨root, hroot, p, hyields, rfl⟩
    obtain ⟨q, hq, hsame⟩ := h.complete root hroot p hyields
    exact ⟨q, hq, Path.sameParts_iff.mp hsame⟩

/-- The files of the same roots are the same, entry by entry. -/
theorem ListsFrom.forall₂_sameParts (h : t.ListsFrom c roots files)
    (h' : t.ListsFrom c roots files') :
    List.Forall₂ (fun p q => p.sameParts q = true) files files' :=
  forall₂_sameParts_of_pairwise h.strict h'.strict fun _ =>
    h.mem_map_parts_iff.trans h'.mem_map_parts_iff.symm

theorem exists_discover_iff :
    (∃ files, t.discover c roots = .ok files) ↔
      ∀ root ∈ roots, ∃ found, t.select c.includes c.excludes root = .ok found := by
  rw [← exists_mapM_ok_iff]
  constructor
  · rintro ⟨files, h⟩
    obtain ⟨found, hfound, -⟩ := exists_of_discover h
    exact ⟨found, hfound⟩
  · rintro ⟨found, hfound⟩
    exact ⟨_, discover_of_mapM hfound⟩

/-- **Only the set of the roots counts.**  In whatever order and however often the roots are given,
either every one can be walked, and the lists of files agree entry by entry, are in strict order and
hold what at least one root yields; or one cannot, and there is no list. -/
theorem discover_of_same_roots (t : FileTree) (c : Config)
    (hroots : ∀ root, root ∈ roots ↔ root ∈ roots') :
    (∀ root ∈ roots, ∃ found, t.select c.includes c.excludes root = .ok found) ∧
        (∃ files files', t.discover c roots = .ok files ∧ t.discover c roots' = .ok files' ∧
          List.Forall₂ (fun p q => p.sameParts q = true) files files' ∧
            t.ListsFrom c roots files ∧ t.ListsFrom c roots' files') ∨
      (∃ root ∈ roots, ∃ e, t.select c.includes c.excludes root = .error e) ∧
        ∃ e e', t.discover c roots = .error e ∧ t.discover c roots' = .error e' := by
  by_cases hall : ∀ root ∈ roots, ∃ found, t.select c.includes c.excludes root = .ok found
  · obtain ⟨files, hfiles⟩ := exists_discover_iff.mpr hall
    obtain ⟨files', hfiles'⟩ := exists_discover_iff.mpr fun root hroot =>
      hall root ((hroots root).mpr hroot)
    have hlists := listsFrom_of_discover hfiles
    have hlists' := listsFrom_of_discover hfiles'
    exact .inl ⟨hall, files, files', hfiles, hfiles',
      (hlists.congr hroots).forall₂_sameParts hlists', hlists, hlists'⟩
  · have hnone : ∀ {roots' : List Path}, (∀ root, root ∈ roots ↔ root ∈ roots') →
        ∃ e, t.discover c roots' = .error e := by
      intro roots' hroots
      rw [exists_error_iff, exists_discover_iff]
      exact fun hall' => hall fun root hroot => hall' root ((hroots root).mp hroot)
    have hroot : ∃ root ∈ roots, ∃ e, t.select c.includes c.excludes root = .error e := by
      simpa only [exists_error_iff, not_forall, exists_prop] using hall
    obtain ⟨e, he⟩ := hnone fun root => Iff.rfl
    obtain ⟨e', he'⟩ := hnone hroots
    exact .inr ⟨hroot, e, e', he, he'⟩

/-- A playbook in a directory. -/
def siteTree : FileTree :=
  { nodes := [([Text.Utf8.encode "a"], .directory),
      ([Text.Utf8.encode "a", Text.Utf8.encode "site.yml"], .file [])]
    here := [] }

/-- Of two spellings with the same parts, the first one is kept. -/
theorem discover_of_same_roots_siteTree :
    (∀ root, root ∈ [Path.ofText "a//site.yml", .ofText "a/site.yml"] ↔
        root ∈ [Path.ofText "a/site.yml", .ofText "a//site.yml", .ofText "a/site.yml"]) ∧
      siteTree.discover {} [.ofText "a//site.yml", .ofText "a/site.yml"] =
          .ok [.ofText "a//site.yml"] ∧
        siteTree.discover {} [.ofText "a/site.yml", .ofText "a//site.yml", .ofText "a/site.yml"] =
            .ok [.ofText "a/site.yml"] ∧
          List.Forall₂ (fun p q => p.sameParts q = true) [Path.ofText "a//site.yml"]
            [.ofText "a/site.yml"] := by
  have hroots : ∀ root, root ∈ [Path.ofText "a//site.yml", .ofText "a/site.yml"] ↔
      root ∈ [Path.ofText "a/site.yml", .ofText "a//site.yml", .ofText "a/site.yml"] := by
    intro root
    simp only [List.mem_cons, List.not_mem_nil, or_false]
    tauto
  have hmapM : [Path.ofText "a//site.yml", .ofText "a/site.yml"].mapM
      (siteTree.select ({} : Config).includes ({} : Config).excludes) =
        .ok [[.ofText "a//site.yml"], [.ofText "a/site.yml"]] := by decide +kernel
  have hmapM' : [Path.ofText "a/site.yml", .ofText "a//site.yml", .ofText "a/site.yml"].mapM
      (siteTree.select ({} : Config).includes ({} : Config).excludes) =
        .ok [[.ofText "a/site.yml"], [.ofText "a//site.yml"], [.ofText "a/site.yml"]] := by
    decide +kernel
  have hfiles : siteTree.discover {} [.ofText "a//site.yml", .ofText "a/site.yml"] =
      .ok [.ofText "a//site.yml"] := by
    rw [discover_of_mapM hmapM, sortedPaths_of_pairwise (by decide +kernel)]
    decide +kernel
  have hfiles' : siteTree.discover {}
      [.ofText "a/site.yml", .ofText "a//site.yml", .ofText "a/site.yml"] =
        .ok [.ofText "a/site.yml"] := by
    rw [discover_of_mapM hmapM', sortedPaths_of_pairwise (by decide +kernel)]
    decide +kernel
  refine ⟨hroots, hfiles, hfiles', ?_⟩
  rcases discover_of_same_roots siteTree {} hroots with
    ⟨-, files, files', h, h', hsame, -⟩ | ⟨-, e, -, h, -⟩
  · cases hfiles.symm.trans h
    cases hfiles'.symm.trans h'
    exact hsame
  · cases hfiles.symm.trans h

end FileTree

end PlaybookPolicy
