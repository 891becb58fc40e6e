import Mathlib.Data.List.TakeWhile
import PlaybookPolicy.Proofs.TreePlaces

/-!
# The spelling of a file's path

A path that leads to a file ends in a name or in `..`: behind a slash or a `.` only a directory can
stand.  So its parts but the last are written by the stretches between its slashes but the last, and
nothing is cut off at its end when a leading path is taken away.

## Main definitions

* `Path.EndsInPart` — the path does not end in a slash or in `.`.
* `Path.withoutHere` — the path without a leading `.`.

## Main results

* `Path.mem_dropLast_segments_iff` — stretches before the last one, told from the octets.
* `Path.name_mem_dropLast_parts_iff` — names before the last part are stretches before the last one.
* `FileTree.endsInPart_of_locate_file` — **a file's path does not end in a slash or in `.`.**
* `Path.stripParts?_self` — a path taken away from itself leaves nothing.
* `Path.parts_withoutHere` — **what a path is without a leading `.`.**
-/

namespace PlaybookPolicy

namespace Path

/-! ### Names on the way of a path -/

/-- A stretch of a path has octets of the path, and no slash among them. -/
theorem stretch_of_mem_segments {s l : List UInt8} (h : s ∈ segments l) :
    slash ∉ s ∧ s ⊆ l := by
  induction l generalizing s with
  | nil =>
    rw [segments, List.splitOn_nil, List.mem_singleton] at h
    rw [h]
    exact ⟨List.not_mem_nil, List.Subset.refl []⟩
  | cons b l ih =>
    obtain ⟨r, m, hl⟩ := List.exists_cons_of_ne_nil (List.splitOn_ne_nil slash l)
    rw [segments, List.splitOn_cons_eq_if_modifyHead, hl] at h
    have htail : ∀ s ∈ r :: m, slash ∉ s ∧ s ⊆ l := fun s hs => ih (by rwa [segments, hl])
    split at h
    · rcases List.mem_cons.mp h with rfl | h
      · exact ⟨List.not_mem_nil, List.nil_subset _⟩
      · exact (htail s h).imp_right (List.subset_cons_of_subset b)
    · next hb =>
      rw [List.modifyHead_cons, List.mem_cons] at h
      rcases h with rfl | h
      · obtain ⟨hslash, hsubset⟩ := htail r List.mem_cons_self
        refine ⟨?_, List.cons_subset_cons b hsubset⟩
        rw [List.mem_cons, not_or]
        exact ⟨fun heq => hb (beq_iff_eq.mpr heq.symm), hslash⟩
      · exact (htail s (List.mem_cons_of_mem r h)).imp_right (List.subset_cons_of_subset b)

theorem slash_notMem_of_mem_segments {s l : List UInt8} (h : s ∈ segments l) : slash ∉ s :=
  (stretch_of_mem_segments h).1

/-- The stretches of a path write it. -/
theorem ofSegments_segments (p : Path) : ofSegments (segments p.octets) = p :=
  congrArg Path.mk (List.intercalate_splitOn slash)

theorem segments_ofSegments {l : List (List UInt8)} (hne : l ≠ []) (h : ∀ s ∈ l, slash ∉ s) :
    segments (ofSegments l).octets = l :=
  List.splitOn_intercalate slash h hne

theorem ofSegments_append {l m : List (List UInt8)} (hl : l ≠ []) (hm : m ≠ []) :
    (ofSegments (l ++ m)).octets = (ofSegments l).octets ++ slash :: (ofSegments m).octets := by
  obtain ⟨s, m, rfl⟩ := List.exists_cons_of_ne_nil hm
  induction l with
  | nil => exact absurd rfl hl
  | cons n l ih =>
    cases l with
    | nil =>
      show n ++ slash :: (ofSegments (s :: m)).octets = (n ++ []) ++ _
      rw [List.append_nil]
    | cons n' l =>
      have htail := ih (List.cons_ne_nil n' l)
      show n ++ slash :: (ofSegments (n' :: l ++ s :: m)).octets =
        (n ++ slash :: (ofSegments (n' :: l)).octets) ++ _
      rw [htail, List.append_assoc, List.cons_append]

/-- A stretch that is not the last one stands at the beginning or behind a slash, and before a
slash. -/
theorem mem_dropLast_segments_iff {s : List UInt8} (hs : slash ∉ s) {p : Path} :
    s ∈ (segments p.octets).dropLast ↔
      ∃ a b, p.octets = a ++ s ++ slash :: b ∧ (a = [] ∨ a.getLast? = some slash) := by
  constructor
  · intro h
    obtain ⟨x, y, hxy⟩ := List.append_of_mem h
    have hsegs := List.dropLast_append_getLast (List.splitOn_ne_nil slash p.octets)
    rw [show (List.splitOn slash p.octets).dropLast = x ++ s :: y from hxy] at hsegs
    generalize (List.splitOn slash p.octets).getLast _ = last at hsegs
    rw [List.append_assoc, List.cons_append] at hsegs
    have hp := congrArg Path.octets (ofSegments_segments p)
    rw [segments, ← hsegs] at hp
    have htail : (ofSegments (s :: (y ++ [last]))).octets =
        s ++ slash :: (ofSegments (y ++ [last])).octets := by
      rw [← List.singleton_append, ofSegments_append (List.cons_ne_nil s []) (by simp)]
      exact congrArg (· ++ _) (List.append_nil s)
    by_cases hx : x = []
    · subst hx
      rw [List.nil_append, htail] at hp
      exact ⟨[], _, hp.symm, .inl rfl⟩
    · rw [ofSegments_append hx (List.cons_ne_nil _ _), htail] at hp
      refine ⟨(ofSegments x).octets ++ [slash], (ofSegments (y ++ [last])).octets, ?_,
        .inr List.getLast?_concat⟩
      rw [← hp]
      simp
  · rintro ⟨a, b, hp, ha⟩
    have hsegs : segments (s ++ slash :: b) = s :: segments b :=
      List.splitOn_append_cons_self_of_not_mem hs b
    obtain ⟨r, m, hb⟩ := List.exists_cons_of_ne_nil (List.splitOn_ne_nil slash b)
    rw [segments, segments, hb] at hsegs
    rcases ha with rfl | ha
    · rw [hp, List.nil_append, segments, hsegs, List.dropLast_cons_cons]
      exact List.mem_cons_self
    · obtain ⟨a, rfl⟩ := List.getLast?_eq_some_iff.mp ha
      rw [hp, List.append_assoc, List.append_assoc, List.singleton_append, segments,
        List.splitOn_append_cons_self, hsegs,
        List.dropLast_append_of_ne_nil (List.cons_ne_nil _ _), List.dropLast_cons_cons]
      exact List.mem_append_right _ List.mem_cons_self

theorem partOfSegment_eq_name_iff {s n : List UInt8} (hn : IsEntryName n) :
    partOfSegment s = some (.name n) ↔ s = n := by
  constructor
  · intro h
    rw [partOfSegment] at h
    split at h
    · cases h
    · split at h <;> cases h
      rfl
  · rintro rfl
    exact partOfSegment_of_isEntryName hn

theorem exists_partOfSegment_of_not_void {s : List UInt8} (h : isVoidSegment s = false) :
    ∃ part, partOfSegment s = some part := by
  rw [← Option.isSome_iff_exists, Option.isSome_iff_ne_none, Ne, partOfSegment_eq_none_iff, h]
  exact Bool.false_ne_true

/-- The path ends in a name or in `..`, not in a slash or in `.`. -/
def EndsInPart (p : Path) : Prop :=
  ∃ init last, segments p.octets = init ++ [last] ∧ isVoidSegment last = false

/-- A name stands before the last part of a path if it is a stretch before the last one. -/
theorem name_mem_dropLast_parts_iff {p : Path} (hp : p.EndsInPart) {n : EntryName}
    (hn : IsEntryName n) :
    PathPart.name n ∈ p.parts.dropLast ↔ n ∈ (segments p.octets).dropLast := by
  obtain ⟨init, last, hsegs, hlast⟩ := hp
  obtain ⟨part, hpart⟩ := exists_partOfSegment_of_not_void hlast
  have hmark : PathPart.name n ∉ (if p.isAbsolute then [PathPart.root]
      else if (segments p.octets).head? == some dot then [.here] else []) := by
    split
    · simp
    · split <;> simp
  rw [parts_eq_append, hsegs, List.filterMap_append, List.filterMap_cons_some hpart,
    List.filterMap_nil, ← List.append_assoc, List.dropLast_concat, List.dropLast_concat,
    List.mem_append, List.mem_filterMap]
  rw [hsegs] at hmark
  constructor
  · rintro (h | ⟨s, hs, heq⟩)
    · exact absurd h hmark
    · rwa [(partOfSegment_eq_name_iff hn).mp heq] at hs
  · intro h
    exact .inr ⟨n, h, partOfSegment_of_isEntryName hn⟩

end Path

/-! ### Paths of files -/

namespace FileTree

variable {t : FileTree} {root p : Path}

theorem not_file_of_followSegments {enter : Place → List (List UInt8) → Except FileError Located}
    {s : List UInt8} (hs : Path.isVoidSegment s = true)
    (henter : ∀ place segs place' content,
      enter place (segs ++ [s]) ≠ .ok ⟨place', some (.file content)⟩) :
    ∀ {segs : List (List UInt8)} {place place' : Place} {content : List UInt8},
      t.followSegments true enter place (segs ++ [s]) ≠ .ok ⟨place', some (.file content)⟩ := by
  intro segs
  induction segs with
  | nil =>
    intro place place' content h
    rw [List.nil_append, followSegments] at h
    split at h
    · cases h
    · next hplace =>
      rw [followSegments, not_not.mp hplace] at h
      cases h
  | cons r segs ih =>
    intro place place' content h
    rw [List.cons_append] at h
    rcases followSegments_cons_cases h with ⟨next, hstep⟩ | ⟨next, target, hstep⟩ | ⟨hfound, -⟩
    · rw [hstep] at h
      exact ih h
    · rw [hstep, ← List.append_assoc] at h
      exact henter next _ place' content h
    · cases hfound

theorem not_file_of_followLinks {s : List UInt8} (hs : Path.isVoidSegment s = true) :
    ∀ {n : Nat} {segs : List (List UInt8)} {place place' : Place} {content : List UInt8},
      t.followLinks true n place (segs ++ [s]) ≠ .ok ⟨place', some (.file content)⟩ := by
  intro n
  induction n with
  | zero =>
    intro segs place place' content
    refine not_file_of_followSegments hs fun place segs place' content h => ?_
    cases h
  | succ n ih =>
    intro segs place place' content
    exact not_file_of_followSegments hs fun place segs place' content => ih

/-- **The path of a file does not end in a slash or in `.`.** -/
theorem endsInPart_of_locate_file {place : Place} {content : List UInt8}
    (h : t.locate true root = .ok ⟨place, some (.file content)⟩) : root.EndsInPart := by
  rcases List.eq_nil_or_concat (Path.segments root.octets) with hsegs | ⟨init, last, hsegs⟩
  · exact absurd hsegs (List.splitOn_ne_nil Path.slash root.octets)
  · rw [List.concat_eq_append] at hsegs
    refine ⟨init, last, hsegs, ?_⟩
    rw [← Bool.not_eq_true]
    intro hlast
    have hfollow := followLinks_of_locate h
    rw [hsegs] at hfollow
    exact not_file_of_followLinks hlast hfollow

end FileTree

namespace Path

variable {root : Path}

theorem endsInPart_ofNames {names : Place} (h : IsDescent names) : (ofNames names).EndsInPart := by
  rcases List.eq_nil_or_concat names with rfl | ⟨init, last, rfl⟩
  · exact absurd rfl h.ne_nil
  · refine ⟨init, last, ?_, isVoidSegment_of_isEntryName (h.isEntryName last (by simp))⟩
    rw [segments_ofNames h, List.concat_eq_append]

theorem exists_dropWhile_concat {k : List (List UInt8)} {last : List UInt8}
    (hlast : isVoidSegment last = false) :
    ∃ m, (k ++ [last]).dropWhile isVoidSegment = m ++ [last] := by
  rcases List.eq_nil_or_concat ((k ++ [last]).dropWhile isVoidSegment) with hnil | ⟨m, last', hm⟩
  · rw [List.dropWhile_eq_nil_iff] at hnil
    rw [hnil last List.mem_concat_self] at hlast
    cases hlast
  · have hsuffix := List.dropWhile_suffix isVoidSegment (l := k ++ [last])
    rw [List.concat_eq_append] at hm
    rw [hm] at hsuffix ⊢
    have heq : last' = last := by simpa using hsuffix.getLast (by simp)
    exact ⟨m, by rw [heq]⟩

/-- If the last stretch is not void, void ones are cut off at the beginning alone. -/
theorem trimSegments_of_endsInPart {l : List (List UInt8)} {last : List UInt8}
    (hlast : isVoidSegment last = false) :
    trimSegments (l ++ [last]) = (l ++ [last]).dropWhile isVoidSegment := by
  obtain ⟨m, hm⟩ := exists_dropWhile_concat (k := l) hlast
  rw [trimSegments, hm, List.reverse_append, List.reverse_singleton, List.singleton_append,
    List.dropWhile_cons_of_neg (by simp [hlast]), List.reverse_cons, List.reverse_reverse]

theorem trimSegments_of_void {v : List (List UInt8)} (hv : ∀ s ∈ v, isVoidSegment s = true) :
    trimSegments v = [] := by
  rw [trimSegments, List.dropWhile_eq_nil_iff.mpr hv]
  rfl

/-- **A path taken away from itself leaves nothing.** -/
theorem stripParts?_self (h : root.EndsInPart) : root.stripParts? root = some (ofSegments []) := by
  have hne : root.octets ≠ [] := by
    intro hnil
    obtain ⟨init, last, hsegs, hlast⟩ := h
    rw [hnil, segments, List.splitOn_nil] at hsegs
    have hlength := congrArg List.getLast? hsegs
    rw [List.getLast?_concat] at hlength
    cases hlength
    cases hlast
  obtain ⟨s, l, hsegs⟩ := List.exists_cons_of_ne_nil (List.splitOn_ne_nil slash root.octets)
  have happend : segments root.octets = s :: l ++ [] := by rw [List.append_nil, ← hsegs, segments]
  obtain ⟨v, hvoid, hstrip⟩ := stripParts?_append happend (.inl hsegs) hne rfl
  rw [List.append_nil, trimSegments_of_void hvoid] at hstrip
  exact hstrip

theorem isAbsolute_ofSegments {s : List UInt8} {l : List (List UInt8)} (hs : slash ∉ s)
    (hne : s ≠ []) : (ofSegments (s :: l)).isAbsolute = false := by
  obtain ⟨b, m, rfl⟩ := List.exists_cons_of_ne_nil hne
  have hb : b ≠ slash := fun heq => hs (heq ▸ List.mem_cons_self)
  cases l with
  | nil => simp [isAbsolute, ofSegments, hb]
  | cons n l => simp [isAbsolute, ofSegments, hb]

theorem filter_filterMap_partOfSegment (l : List (List UInt8)) :
    (l.filterMap partOfSegment).filter (· != .here) = l.filterMap partOfSegment := by
  rw [List.filter_eq_self]
  intro part hpart
  obtain ⟨s, -, hs⟩ := List.mem_filterMap.mp hpart
  rw [bne_iff_ne]
  rintro rfl
  rw [partOfSegment] at hs
  split at hs
  · cases hs
  · split at hs <;> cases hs

theorem here_mem_parts_iff :
    PathPart.here ∈ root.parts ↔
      (segments root.octets).head? = some dot ∧ root.isAbsolute = false := by
  have hnames : PathPart.here ∉ (segments root.octets).filterMap partOfSegment := by
    rw [← filter_filterMap_partOfSegment]
    intro h
    have hne := List.of_mem_filter h
    simp at hne
  rw [parts_eq_append, List.mem_append, or_iff_left hnames]
  cases root.isAbsolute <;> simp

/-! ### Without a leading point -/

/-- The path without a leading `.`. -/
def withoutHere (p : Path) : Path :=
  (p.stripParts? (ofText ".")).getD p

theorem withoutHere_of_notMem (h : PathPart.here ∉ root.parts) : root.withoutHere = root := by
  have hbase : (ofText ".").parts = [.here] := by decide
  have hstrip : root.stripParts? (ofText ".") = none := by
    rw [here_mem_parts_iff, not_and, Bool.not_eq_false] at h
    rw [stripParts?, hbase]
    simp only [Option.map_eq_none_iff, ite_eq_right_iff, Bool.and_eq_true, beq_iff_eq,
      Bool.not_eq_true']
    rintro ⟨hhead, habs⟩
    rw [h hhead] at habs
    cases habs
  rw [withoutHere, hstrip, Option.getD_none]

/-- What is left without a leading `.` begins with the first part behind it. -/
theorem exists_segments_withoutHere (h : root.EndsInPart) (hhere : PathPart.here ∈ root.parts) :
    ∃ v init last, segments root.octets = (dot :: v) ++ (init ++ [last]) ∧
      (∀ r ∈ v, isVoidSegment r = true) ∧ isVoidSegment last = false ∧
      (∀ s ∈ (init ++ [last]).head?, isVoidSegment s = false) ∧
      root.withoutHere = ofSegments (init ++ [last]) := by
  have hbase : (ofText ".").parts = [.here] := by decide
  obtain ⟨hhead, habs⟩ := here_mem_parts_iff.mp hhere
  obtain ⟨init, last, hsegs, hlast⟩ := h
  obtain ⟨k, rfl⟩ : ∃ k, init = dot :: k := by
    cases init with
    | nil =>
      rw [hsegs] at hhead
      cases hhead
      cases hlast
    | cons s k =>
      rw [hsegs] at hhead
      cases hhead
      exact ⟨k, rfl⟩
  rw [List.cons_append] at hsegs
  have hstrip : root.withoutHere = ofSegments ((k ++ [last]).dropWhile isVoidSegment) := by
    rw [withoutHere, stripParts?_of_here hbase habs hhead, hsegs, dropSegments, Option.map_some,
      List.drop_one, List.tail_cons, trimSegments_of_endsInPart hlast, Option.getD_some]
  have htake := List.takeWhile_append_dropWhile (p := isVoidSegment) (l := k ++ [last])
  have hfirst := List.head?_dropWhile_not isVoidSegment (k ++ [last])
  obtain ⟨m, hm⟩ := exists_dropWhile_concat (k := k) hlast
  rw [hm] at hstrip htake hfirst
  refine ⟨(k ++ [last]).takeWhile isVoidSegment, m, last, ?_,
    fun r hr => List.mem_takeWhile_imp hr, hlast, ?_, hstrip⟩
  · rw [hsegs, List.cons_append, htake]
  · intro s hs
    rw [Option.mem_def.mp hs] at hfirst
    simpa using hfirst

theorem EndsInPart.withoutHere (h : root.EndsInPart) : root.withoutHere.EndsInPart := by
  by_cases hhere : PathPart.here ∈ root.parts
  · obtain ⟨v, init, last, hsegs, -, hlast, -, hstrip⟩ := exists_segments_withoutHere h hhere
    refine ⟨init, last, ?_, hlast⟩
    rw [hstrip, segments_ofSegments (by simp) fun r hr => ?_]
    exact slash_notMem_of_mem_segments (hsegs ▸ List.mem_append_right _ hr)
  · rwa [withoutHere_of_notMem hhere]

theorem withoutHere_suffix (h : root.EndsInPart) : root.withoutHere.octets <:+ root.octets := by
  by_cases hhere : PathPart.here ∈ root.parts
  · obtain ⟨v, init, last, hsegs, -, -, -, hstrip⟩ := exists_segments_withoutHere h hhere
    have hoctets := congrArg Path.octets (ofSegments_segments root)
    rw [hsegs, ofSegments_append (List.cons_ne_nil dot v) (by simp)] at hoctets
    rw [hstrip, ← hoctets]
    exact (List.suffix_cons slash _).trans (List.suffix_append _ _)
  · simp only [withoutHere_of_notMem hhere, List.suffix_refl]

/-- **A path without a leading `.`** has the other parts of the path. -/
theorem parts_withoutHere (h : root.EndsInPart) :
    root.withoutHere.parts = root.parts.filter (· != .here) := by
  by_cases hhere : PathPart.here ∈ root.parts
  · obtain ⟨v, init, last, hsegs, hv, -, hfirst, hstrip⟩ := exists_segments_withoutHere h hhere
    obtain ⟨hhead, habs⟩ := here_mem_parts_iff.mp hhere
    obtain ⟨s, m, hm⟩ := List.exists_cons_of_ne_nil (l := init ++ [last]) (by simp)
    rw [hm] at hsegs hfirst hstrip
    have hsne : s ≠ [] ∧ s ≠ dot := by simpa [isVoidSegment] using hfirst s rfl
    have hslash : ∀ r ∈ s :: m, slash ∉ r := fun r hr =>
      slash_notMem_of_mem_segments (l := root.octets) (hsegs ▸ List.mem_append_right _ hr)
    have hnone : (dot :: v).filterMap partOfSegment = [] := by
      rw [List.filterMap_cons_none rfl, List.filterMap_eq_nil_iff]
      exact fun r hr => partOfSegment_eq_none_iff.mpr (hv r hr)
    rw [hstrip, parts_eq_append, isAbsolute_ofSegments (hslash s List.mem_cons_self) hsne.1,
      segments_ofSegments (List.cons_ne_nil s m) hslash, List.head?_cons, parts_eq_append, hhead,
      habs, hsegs, List.filterMap_append, hnone, List.nil_append, List.filter_append,
      filter_filterMap_partOfSegment]
    simp [hsne.2]
  · rw [withoutHere_of_notMem hhere, eq_comm, List.filter_eq_self]
    intro part hpart
    rw [bne_iff_ne]
    rintro rfl
    exact hhere hpart

end Path

end PlaybookPolicy
