import Mathlib.Tactic.ByContra
import PlaybookPolicy.Proofs.JoinedPath
import PlaybookPolicy.Proofs.MapEntries

/-!
# Places below a directory

A path leads on from where its beginning leads, whatever links there are on the way to the
directory; below a directory, names that lead through directories to a file need no links at all.
So the paths that a walk gives lead to the places that the walk has found.

## Main definitions

* `FileTree.WellFormed` — what every real file system keeps: entries have names and stand in
  directories, and no two stand at the same place.
* `FileTree.Descends` — names lead from a directory to a file.
* `FileTree.LeadsTo` — a path leads to a place.

## Main results

* `FileTree.descends_of_mem_filesBelow` — the names of files below a directory lead to them.
* `FileTree.followLinks_append` — **a path leads on from where its beginning leads.**
* `FileTree.locate_join` — a path below a root leads to the place that the names say.
* `FileTree.place_of_locate_join` — and to no other.
-/

namespace PlaybookPolicy

namespace FileTree

/-- What every real file system keeps. -/
structure WellFormed (t : FileTree) : Prop where
  /-- Places other than the root directory have names, as entries have them. -/
  names : ∀ e ∈ t.nodes, IsDescent e.1
  /-- Everything stands in a directory. -/
  parents : ∀ e ∈ t.nodes, ∀ k < e.1.length, t.node? (e.1.take k) = some .directory
  /-- No two entries stand at the same place. -/
  distinct : (t.nodes.map Prod.fst).Nodup

/-- The names lead from a directory to a file, through directories. -/
structure Descends (t : FileTree) (directory names : Place) : Prop where
  descent : IsDescent names
  directories : ∀ k < names.length, t.node? (directory ++ names.take k) = some .directory
  file : ∃ content, t.node? (directory ++ names) = some (.file content)

/-- The path leads to the place, through any links. -/
def LeadsTo (t : FileTree) (p : Path) (place : Place) : Prop :=
  ∃ node?, t.locate true p = .ok ⟨place, node?⟩

variable {t : FileTree} {directory names : Place}

/-! ### Files below a directory -/

theorem node?_of_mem (h : t.WellFormed) {place : Place} {node : Node}
    (hmem : (place, node) ∈ t.nodes) : t.node? place = some node := by
  have hne : place.isEmpty = false := List.isEmpty_eq_false_iff.mpr (h.names _ hmem).ne_nil
  rw [node?, hne, if_neg Bool.false_ne_true]
  exact lookup_of_mem h.distinct hmem

theorem mem_filesBelow_iff :
    names ∈ t.filesBelow directory ↔
      ∃ content, (directory ++ names, Node.file content) ∈ t.nodes := by
  rw [filesBelow, List.mem_filterMap]
  constructor
  · rintro ⟨⟨place, node⟩, hmem, h⟩
    cases node with
    | file content =>
      simp only at h
      split at h
      · next hl =>
        obtain ⟨l, rfl⟩ := List.isPrefixOf_iff_prefix.mp hl
        cases h
        rw [List.drop_left]
        exact ⟨content, hmem⟩
      · cases h
    | directory => cases h
    | link target => cases h
  · rintro ⟨content, hmem⟩
    refine ⟨_, hmem, ?_⟩
    simp only
    rw [if_pos ( List.isPrefixOf_iff_prefix.mpr (List.prefix_append directory names)),
      List.drop_left]

/-- **The names of files below a directory lead to them.** -/
theorem descends_of_mem_filesBelow (h : t.WellFormed)
    (hdirectory : t.node? directory = some .directory) (hnames : names ∈ t.filesBelow directory) :
    t.Descends directory names := by
  obtain ⟨content, hmem⟩ := mem_filesBelow_iff.mp hnames
  have hfile := node?_of_mem h hmem
  refine ⟨⟨?_, fun n hn => ?_⟩, fun k hk => ?_, content, hfile⟩
  · rintro rfl
    rw [List.append_nil, hdirectory] at hfile
    cases hfile
  · exact (h.names _ hmem).isEntryName n (List.mem_append_right directory hn)
  · have hparent := h.parents _ hmem (directory.length + k) (by simp; omega)
    rwa [List.take_length_add_append] at hparent

/-! ### Following names -/

theorem Descends.tail {n : EntryName} {l : Place} (h : t.Descends directory (n :: l))
    (hl : l ≠ []) : t.Descends (directory ++ [n]) l := by
  refine ⟨⟨hl, fun m hm => h.descent.isEntryName m (List.mem_cons_of_mem n hm)⟩, ?_, ?_⟩
  · intro k hk
    have hk' := h.directories (k + 1) (by simpa using hk)
    rwa [List.take_succ_cons, ← List.singleton_append, ← List.append_assoc] at hk'
  · obtain ⟨content, hfile⟩ := h.file
    rw [← List.singleton_append, ← List.append_assoc] at hfile
    exact ⟨content, hfile⟩

/-- Names that lead through directories to a file are followed without entering a link. -/
theorem followSegments_of_descends
    {enter : Place → List (List UInt8) → Except FileError Located} :
    ∀ {names directory : Place}, t.Descends directory names →
      t.followSegments true enter directory names =
        .ok ⟨directory ++ names, t.node? (directory ++ names)⟩ := by
  intro names
  induction names with
  | nil =>
    intro directory h
    exact absurd rfl h.descent.ne_nil
  | cons n l ih =>
    intro directory h
    have hn := h.descent.isEntryName n List.mem_cons_self
    have hdirectory : t.node? directory = some .directory := by
      have h0 := h.directories 0 (by simp)
      rwa [List.take_zero, List.append_nil] at h0
    have hdots : (n == Path.dotDot) = false := by simpa using hn.ne_dotDot
    have hlength : ¬n.length > nameLimit := by
      have hle := hn.length_le
      omega
    rw [followSegments, if_neg (by simp [hdirectory]),
      if_neg (by simp [Path.isVoidSegment_of_isEntryName hn]), if_neg (by simp [hdots]),
      if_neg hlength]
    by_cases hl : l = []
    · subst hl
      obtain ⟨content, hfile⟩ := h.file
      simp only [hfile, followSegments]
    · have htail := h.tail hl
      have hchild : t.node? (directory ++ [n]) = some .directory := by
        have h0 := htail.directories 0 (List.length_pos_of_ne_nil hl)
        rwa [List.take_zero, List.append_nil] at h0
      simp only [hchild]
      rw [ih htail, List.append_assoc, List.singleton_append]

/-! ### Following a path further -/

variable {enter : Place → List (List UInt8) → Except FileError Located}

/-- **What one stretch of a path does**, if the path can be followed: it leads to another place or
through a link, whatever follows it; or it is the name of nothing. -/
theorem followSegments_cons_cases {s : List UInt8} {rest : List (List UInt8)} {place : Place}
    {found : Located} (h : t.followSegments true enter place (s :: rest) = .ok found) :
    (∃ next, ∀ l, t.followSegments true enter place (s :: l) =
        t.followSegments true enter next l) ∨
      (∃ next target, ∀ l, t.followSegments true enter place (s :: l) =
        enter next (target ++ l)) ∨
      found.node? = none ∧ t.node? found.place = none := by
  rw [followSegments] at h
  by_cases hplace : t.node? place ≠ some .directory
  · rw [if_pos hplace] at h
    cases h
  · rw [if_neg hplace] at h
    by_cases hvoid : Path.isVoidSegment s = true
    · refine .inl ⟨place, fun l => ?_⟩
      rw [followSegments, if_neg hplace, if_pos hvoid]
    · rw [if_neg hvoid] at h
      by_cases hdots : (s == Path.dotDot) = true
      · refine .inl ⟨place.dropLast, fun l => ?_⟩
        rw [followSegments, if_neg hplace, if_neg hvoid, if_pos hdots]
      · rw [if_neg hdots] at h
        by_cases hlength : s.length > nameLimit
        · rw [if_pos hlength] at h
          cases h
        · rw [if_neg hlength] at h
          have hstep : ∀ l, t.followSegments true enter place (s :: l) = _ := fun l => by
            rw [followSegments, if_neg hplace, if_neg hvoid, if_neg hdots, if_neg hlength]
          cases hchild : t.node? (place ++ [s]) with
          | none =>
            simp only [hchild] at h
            split at h
            · cases h
              exact .inr (.inr ⟨rfl, hchild⟩)
            · cases h
          | some node =>
            cases node with
            | link target =>
              refine .inr (.inl ⟨if target.isAbsolute then [] else place,
                Path.segments target.octets, fun l => ?_⟩)
              rw [hstep]
              simp [hchild]
            | directory =>
              refine .inl ⟨place ++ [s], fun l => ?_⟩
              rw [hstep]
              simp [hchild]
            | file content =>
              refine .inl ⟨place ++ [s], fun l => ?_⟩
              rw [hstep]
              simp [hchild]

theorem node?_of_followSegments
    (henter : ∀ place segs found, enter place segs = .ok found →
      found.node? = t.node? found.place) :
    ∀ {segs : List (List UInt8)} {place : Place} {found : Located},
      t.followSegments true enter place segs = .ok found →
        found.node? = t.node? found.place := by
  intro segs
  induction segs with
  | nil =>
    intro place found h
    cases h
    rfl
  | cons s segs ih =>
    intro place found h
    rcases followSegments_cons_cases h with ⟨next, hstep⟩ | ⟨next, target, hstep⟩ | ⟨hfound, hnode⟩
    · rw [hstep] at h
      exact ih h
    · rw [hstep] at h
      exact henter next _ found h
    · rw [hfound, hnode]

/-- A path finds at its place what stands there. -/
theorem node?_of_followLinks : ∀ {n : Nat} {segs : List (List UInt8)} {place : Place}
    {found : Located}, t.followLinks true n place segs = .ok found →
      found.node? = t.node? found.place := by
  intro n
  induction n with
  | zero =>
    intro segs place found h
    refine node?_of_followSegments ?_ h
    intro place segs found h
    cases h
  | succ n ih =>
    intro segs place found h
    exact node?_of_followSegments (fun place segs found h => ih h) h

/-- What ends the path of a directory: nothing, or a slash. -/
def IsEnd (tail : List (List UInt8)) : Prop :=
  tail = [] ∨ tail = [[]]

variable {tail more : List (List UInt8)} {result : Except FileError Located}

theorem eq_of_followSegments_isEnd (htail : IsEnd tail) {place : Place}
    (h : t.followSegments true enter place tail = .ok ⟨directory, some .directory⟩) :
    place = directory ∧ t.node? place = some .directory := by
  rcases htail with rfl | rfl
  · simp only [followSegments, Except.ok.injEq, Located.mk.injEq] at h
    exact h
  · rw [followSegments] at h
    split at h
    · cases h
    · have hvoid : Path.isVoidSegment [] = true := rfl
      simp only [hvoid, if_true, followSegments, Except.ok.injEq, Located.mk.injEq] at h
      exact h

theorem followSegments_append (htail : IsEnd tail)
    (henter : ∀ place segs, enter place (segs ++ tail) = .ok ⟨directory, some .directory⟩ →
      enter place (segs ++ more) = result)
    (hmore : t.followSegments true enter directory more = result) :
    ∀ {segs : List (List UInt8)} {place : Place},
      t.followSegments true enter place (segs ++ tail) = .ok ⟨directory, some .directory⟩ →
        t.followSegments true enter place (segs ++ more) = result := by
  intro segs
  induction segs with
  | nil =>
    intro place h
    rw [List.nil_append] at h ⊢
    rw [(eq_of_followSegments_isEnd htail h).1, hmore]
  | cons s segs ih =>
    intro place h
    rw [List.cons_append] at h ⊢
    rcases followSegments_cons_cases h with ⟨next, hstep⟩ | ⟨next, target, hstep⟩ | ⟨hfound, -⟩
    · rw [hstep] at h ⊢
      exact ih h
    · rw [hstep, ← List.append_assoc] at h ⊢
      exact henter next _ h
    · cases hfound

/-- **A path leads on from where its beginning leads**, whatever links its beginning goes through,
if what follows needs none. -/
theorem followLinks_append (htail : IsEnd tail)
    (hmore : ∀ enter, t.followSegments true enter directory more = result) :
    ∀ {n : Nat} {segs : List (List UInt8)} {place : Place},
      t.followLinks true n place (segs ++ tail) = .ok ⟨directory, some .directory⟩ →
        t.followLinks true n place (segs ++ more) = result := by
  intro n
  -- a link costs one of the links that are left, and its target is followed with the same tail
  induction n with
  | zero =>
    intro segs place h
    refine followSegments_append htail ?_ (hmore _) h
    intro place segs h
    cases h
  | succ n ih =>
    intro segs place h
    exact followSegments_append htail (fun place segs h => ih h) (hmore _) h

/-! ### Locating a path below a root -/

variable {root : Path}

theorem octets_ne_nil_of_locate {found : Located} (h : t.locate true root = .ok found) :
    root.octets ≠ [] := by
  intro hnil
  rw [locate, hnil] at h
  cases h

theorem nul_notMem_of_locate {found : Located} (h : t.locate true root = .ok found) :
    root.octets.contains 0 = false := by
  rw [locate] at h
  split at h
  · cases h
  · split at h
    · cases h
    · next hnul => simpa using hnul

theorem locate_eq_of_le {p : Path} (hne : p.octets ≠ []) (hnul : p.octets.contains 0 = false)
    (hlength : p.octets.length ≤ pathLimit) :
    t.locate true p = t.followLinks true linkLimit (if p.isAbsolute then [] else t.here)
      (Path.segments p.octets) := by
  rw [locate, List.isEmpty_eq_false_iff.mpr hne, if_neg Bool.false_ne_true, hnul,
    if_neg Bool.false_ne_true, if_neg (by omega)]

theorem followLinks_of_locate {found : Located} (h : t.locate true root = .ok found) :
    t.followLinks true linkLimit (if root.isAbsolute then [] else t.here)
      (Path.segments root.octets) = .ok found := by
  have hne := octets_ne_nil_of_locate h
  have hnul := nul_notMem_of_locate h
  have hlength : root.octets.length ≤ pathLimit := by
    by_contra hlong
    rw [locate, List.isEmpty_eq_false_iff.mpr hne, if_neg Bool.false_ne_true, hnul,
      if_neg Bool.false_ne_true, if_pos (by omega)] at h
    cases h
  rw [← locate_eq_of_le hne hnul hlength, h]

theorem node?_of_locate {node? : Option Node} {place : Place}
    (h : t.locate true root = .ok ⟨place, node?⟩) : t.node? place = node? :=
  (node?_of_followLinks (followLinks_of_locate h)).symm

theorem nul_notMem_join {found : Located} (h : t.locate true root = .ok found)
    (hnames : t.Descends directory names) :
    (root.join (.ofNames names)).octets.contains 0 = false := by
  have hroot := nul_notMem_of_locate h
  rw [List.contains_eq_mem, decide_eq_false_iff_not] at hroot ⊢
  intro hmem
  rcases Path.mem_join hmem with hmem | hmem | hmem
  · exact hroot hmem
  · cases hmem
  · exact Path.nul_notMem_ofNames hnames.descent.isEntryName hmem

/-- **A path below a root leads to the place that the names say**, if it is not too long. -/
theorem locate_join (h : t.locate true root = .ok ⟨directory, some .directory⟩)
    (hnames : t.Descends directory names) :
    t.locate true (root.join (.ofNames names)) =
      if (root.join (.ofNames names)).octets.length > pathLimit then .error .nameTooLong
      else .ok ⟨directory ++ names, t.node? (directory ++ names)⟩ := by
  have hroot := octets_ne_nil_of_locate h
  have hne := Path.join_ne_nil hroot hnames.descent
  have hnul := nul_notMem_join h hnames
  split
  · next hlong =>
    rw [locate, List.isEmpty_eq_false_iff.mpr hne, if_neg Bool.false_ne_true, hnul,
      if_neg Bool.false_ne_true, if_pos hlong]
  · next hlength =>
    rw [locate_eq_of_le hne hnul (by omega), Path.isAbsolute_join hroot hnames.descent]
    obtain ⟨l, hjoin, -, hsegs⟩ := Path.segments_join hroot hnames.descent
    rw [hjoin]
    have htail : ∃ tail, IsEnd tail ∧ Path.segments root.octets = l ++ tail := by
      rcases hsegs with hsegs | hsegs
      · exact ⟨[], .inl rfl, by rw [hsegs, List.append_nil]⟩
      · exact ⟨[[]], .inr rfl, hsegs⟩
    obtain ⟨tail, htail, hsegs⟩ := htail
    have hfollow := followLinks_of_locate h
    rw [hsegs] at hfollow
    exact followLinks_append htail (fun enter => followSegments_of_descends hnames) hfollow

/-- A path below a root leads to no other place. -/
theorem place_of_locate_join (h : t.locate true root = .ok ⟨directory, some .directory⟩)
    (hnames : t.Descends directory names) {place : Place}
    (hplace : t.LeadsTo (root.join (.ofNames names)) place) : place = directory ++ names := by
  obtain ⟨node?, hlocate⟩ := hplace
  rw [locate_join h hnames] at hlocate
  split at hlocate
  · cases hlocate
  · cases hlocate
    rfl

end FileTree

end PlaybookPolicy
