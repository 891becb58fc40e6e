import Mathlib.Data.List.Basic
import PlaybookPolicy.Discovery
import PlaybookPolicy.Proofs.PathOrder

/-!
# Paths below a root

A walk spells the files it finds as the root with names behind it.  However the root is spelled,
with slashes at its end, with empty stretches or with dots, such a path has the parts of the root
and then the names; so paths below one root are ordered by their names, and taking the root away
gives the names again.

## Main definitions

* `IsEntryName`, `IsDescent` — the octets name an entry of a directory; names lead down from one.
* `Path.ofNames` — the path that names write.

## Main results

* `Path.segments_join` — the stretches of a path below a root.
* `Path.parts_join` — **the parts of a path below a root.**
* `Path.compareParts_join` — paths below one root are ordered by their names.
* `Path.stripParts?_join` — **a root is taken away again.**
* `matchPath_join` — patterns see the names alone.
-/

namespace PlaybookPolicy

/-! ### Names -/

/-- The octets name an entry of a directory. -/
structure IsEntryName (n : EntryName) : Prop where
  ne_nil : n ≠ []
  ne_dot : n ≠ Path.dot
  ne_dotDot : n ≠ Path.dotDot
  slash_notMem : Path.slash ∉ n
  nul_notMem : 0 ∉ n
  length_le : n.length ≤ FileTree.nameLimit

instance (n : EntryName) : Decidable (IsEntryName n) :=
  decidable_of_iff
    (n ≠ [] ∧ n ≠ Path.dot ∧ n ≠ Path.dotDot ∧ Path.slash ∉ n ∧ 0 ∉ n ∧
      n.length ≤ FileTree.nameLimit)
    ⟨fun ⟨h₁, h₂, h₃, h₄, h₅, h₆⟩ => ⟨h₁, h₂, h₃, h₄, h₅, h₆⟩,
      fun ⟨h₁, h₂, h₃, h₄, h₅, h₆⟩ => ⟨h₁, h₂, h₃, h₄, h₅, h₆⟩⟩

/-- The names lead down from a directory, by one step at least. -/
structure IsDescent (names : Place) : Prop where
  ne_nil : names ≠ []
  isEntryName : ∀ n ∈ names, IsEntryName n

namespace Path

theorem isVoidSegment_of_isEntryName {n : EntryName} (h : IsEntryName n) :
    isVoidSegment n = false := by
  simp [isVoidSegment, h.ne_nil, h.ne_dot]

theorem partOfSegment_of_isEntryName {n : EntryName} (h : IsEntryName n) :
    partOfSegment n = some (.name n) := by
  simp [partOfSegment, h.ne_nil, h.ne_dot, h.ne_dotDot]

theorem partOfSegment_eq_none_iff {s : List UInt8} :
    partOfSegment s = none ↔ isVoidSegment s = true := by
  rw [partOfSegment, isVoidSegment]
  split
  · next h => simp [h]
  · next h =>
    rw [Bool.not_eq_true] at h
    split <;> simp [h]

theorem filterMap_partOfSegment {names : Place} (h : ∀ n ∈ names, IsEntryName n) :
    names.filterMap partOfSegment = names.map .name := by
  rw [List.filterMap_eq_map_iff_forall_eq_some]
  exact fun n hn => partOfSegment_of_isEntryName (h n hn)

/-! ### The path that names write -/

/-- The path that names write. -/
def ofNames (names : Place) : Path :=
  ⟨octetsOfNames names⟩

variable {names : Place} {root : Path}

theorem segments_ofNames (h : IsDescent names) : segments (ofNames names).octets = names :=
  List.splitOn_intercalate slash (fun n hn => (h.isEntryName n hn).slash_notMem) h.ne_nil

theorem exists_cons_ofNames (h : IsDescent names) :
    ∃ b l, (ofNames names).octets = b :: l ∧ b ≠ slash := by
  obtain ⟨n, l, rfl⟩ := List.exists_cons_of_ne_nil h.ne_nil
  have hn := h.isEntryName n List.mem_cons_self
  obtain ⟨b, m, rfl⟩ := List.exists_cons_of_ne_nil hn.ne_nil
  have hb : b ≠ slash := by
    rintro rfl
    exact hn.slash_notMem List.mem_cons_self
  cases l with
  | nil => exact ⟨b, m ++ [], rfl, hb⟩
  | cons n' l => exact ⟨b, _, rfl, hb⟩

theorem nul_notMem_ofNames : ∀ {names : Place}, (∀ n ∈ names, IsEntryName n) →
    0 ∉ (ofNames names).octets := by
  intro names
  induction names with
  | nil =>
    intro _ hmem
    cases hmem
  | cons n l ih =>
    intro h hmem
    rw [List.forall_mem_cons] at h
    cases l with
    | nil =>
      have hoctets : (ofNames [n]).octets = n := List.append_nil n
      rw [hoctets] at hmem
      exact h.1.nul_notMem hmem
    | cons m l =>
      have hoctets : (ofNames (n :: m :: l)).octets = n ++ slash :: (ofNames (m :: l)).octets := rfl
      rw [hoctets, List.mem_append, List.mem_cons] at hmem
      rcases hmem with hmem | hmem | hmem
      · exact h.1.nul_notMem hmem
      · cases hmem
      · exact ih h.2 hmem

theorem isAbsolute_ofNames (h : IsDescent names) : (ofNames names).isAbsolute = false := by
  obtain ⟨b, l, hl, hb⟩ := exists_cons_ofNames h
  simp [isAbsolute, hl, hb]

theorem head?_names_ne_dot (h : IsDescent names) : (names.head? == some dot) = false := by
  obtain ⟨n, l, rfl⟩ := List.exists_cons_of_ne_nil h.ne_nil
  simp [(h.isEntryName n List.mem_cons_self).ne_dot]

theorem parts_ofNames (h : IsDescent names) : (ofNames names).parts = names.map .name := by
  rw [parts, isAbsolute_ofNames h, segments_ofNames h, head?_names_ne_dot h]
  exact filterMap_partOfSegment h.isEntryName

/-! ### Joining -/

/-- **The stretches of a path below a root** are those of the root, up to an empty one at its end,
and then the names. -/
theorem segments_join (hroot : root.octets ≠ []) (h : IsDescent names) :
    ∃ l, segments (root.join (ofNames names)).octets = l ++ names ∧ l ≠ [] ∧
      (segments root.octets = l ∨ segments root.octets = l ++ [[]]) := by
  have hempty : root.octets.isEmpty = false := List.isEmpty_eq_false_iff.mpr hroot
  rw [join, isAbsolute_ofNames h, hempty, Bool.or_self, if_neg Bool.false_ne_true]
  split
  · next hslash =>
    -- the root ends with a slash
    rw [beq_iff_eq, List.getLast?_eq_some_iff] at hslash
    obtain ⟨r, hr⟩ := hslash
    refine ⟨segments r, ?_, List.splitOn_ne_nil _ _, .inr ?_⟩
    · show segments (root.octets ++ (ofNames names).octets) = _
      rw [hr, List.append_assoc, List.singleton_append, segments,
        List.splitOn_append_cons_self r]
      exact congrArg _ (segments_ofNames h)
    · rw [hr, segments, List.splitOn_append_cons_self r []]
      rfl
  · refine ⟨segments root.octets, ?_, List.splitOn_ne_nil _ _, .inl rfl⟩
    show segments (root.octets ++ slash :: (ofNames names).octets) = _
    rw [segments, List.splitOn_append_cons_self]
    exact congrArg _ (segments_ofNames h)

theorem isAbsolute_join (hroot : root.octets ≠ []) (h : IsDescent names) :
    (root.join (ofNames names)).isAbsolute = root.isAbsolute := by
  have hempty : root.octets.isEmpty = false := List.isEmpty_eq_false_iff.mpr hroot
  rw [join, isAbsolute_ofNames h, hempty, Bool.or_self, if_neg Bool.false_ne_true]
  obtain ⟨b, l, hl⟩ := List.exists_cons_of_ne_nil hroot
  split
  · simp [isAbsolute, hl]
  · simp [isAbsolute, hl]

theorem join_ne_nil (hroot : root.octets ≠ []) (h : IsDescent names) :
    (root.join (ofNames names)).octets ≠ [] := by
  have hempty : root.octets.isEmpty = false := List.isEmpty_eq_false_iff.mpr hroot
  rw [join, isAbsolute_ofNames h, hempty, Bool.or_self, if_neg Bool.false_ne_true]
  split <;> simp [hroot]

theorem mem_join {b : UInt8} (h : b ∈ (root.join (ofNames names)).octets) :
    b ∈ root.octets ∨ b = slash ∨ b ∈ (ofNames names).octets := by
  rw [join] at h
  split at h
  · exact .inr (.inr h)
  · split at h
    · rcases List.mem_append.mp h with h | h
      · exact .inl h
      · exact .inr (.inr h)
    · rcases List.mem_append.mp h with h | h
      · exact .inl h
      · exact .inr (List.mem_cons.mp h)

/-- The parts that stretches write, behind what tells where a path begins. -/
theorem parts_eq_append (p : Path) :
    p.parts = (if p.isAbsolute then [.root]
      else if (segments p.octets).head? == some dot then [.here] else []) ++
        (segments p.octets).filterMap partOfSegment := by
  rw [parts]
  split
  · rfl
  · split <;> rfl

/-- **The parts of a path below a root** are the parts of the root and then the names. -/
theorem parts_join (hroot : root.octets ≠ []) (h : IsDescent names) :
    (root.join (ofNames names)).parts = root.parts ++ names.map .name := by
  obtain ⟨l, hjoin, hl, hr⟩ := segments_join hroot h
  have hhead : (segments (root.join (ofNames names)).octets).head? =
      (segments root.octets).head? := by
    obtain ⟨s, l, rfl⟩ := List.exists_cons_of_ne_nil hl
    rcases hr with hr | hr <;> rw [hjoin, hr] <;> rfl
  have hparts : (segments root.octets).filterMap partOfSegment = l.filterMap partOfSegment := by
    rcases hr with hr | hr
    · rw [hr]
    · rw [hr, List.filterMap_append]
      exact List.append_nil _
  rw [parts_eq_append, parts_eq_append, isAbsolute_join hroot h, hhead, hparts, hjoin,
    List.filterMap_append, filterMap_partOfSegment h.isEntryName, List.append_assoc]

theorem comparePartLists_append (l l₁ l₂ : List PathPart) :
    comparePartLists (l ++ l₁) (l ++ l₂) = comparePartLists l₁ l₂ := by
  induction l with
  | nil => rfl
  | cons a l ih =>
    have hself : a.compare a = .eq := Std.ReflCmp.compare_self
    rw [List.cons_append, List.cons_append, comparePartLists, ih, hself]
    rfl

/-- Paths below one root are ordered by their names. -/
theorem compareParts_join {names' : Place} (hroot : root.octets ≠ []) (h : IsDescent names)
    (h' : IsDescent names') :
    (root.join (ofNames names)).compareParts (root.join (ofNames names')) =
      (ofNames names).compareParts (ofNames names') := by
  rw [compareParts, compareParts, parts_join hroot h, parts_join hroot h', parts_ofNames h,
    parts_ofNames h', comparePartLists_append]

/-! ### Taking a root away -/

/-- Dropping the stretches that write the parts of others leaves at most void ones of them. -/
theorem dropSegments_append (l more : List (List UInt8)) :
    ∃ v, dropSegments (l.filterMap partOfSegment) (l ++ more) = some (v ++ more) ∧
      ∀ s ∈ v, isVoidSegment s = true := by
  induction l with
  | nil => exact ⟨[], by rw [List.filterMap_nil, dropSegments], by simp⟩
  | cons s l ih =>
    obtain ⟨v, hdrop, hvoid⟩ := ih
    cases hs : partOfSegment s with
    | some part =>
      refine ⟨v, ?_, hvoid⟩
      rw [List.filterMap_cons_some hs, List.cons_append, dropSegments, hs]
      simp only [if_pos, hdrop]
    | none =>
      rw [List.filterMap_cons_none hs]
      cases hparts : l.filterMap partOfSegment with
      | nil =>
        refine ⟨s :: l, by rw [dropSegments], ?_⟩
        rw [List.forall_mem_cons]
        rw [List.filterMap_eq_nil_iff] at hparts
        exact ⟨partOfSegment_eq_none_iff.mp hs, fun r hr =>
          partOfSegment_eq_none_iff.mp (hparts r hr)⟩
      | cons part ps =>
        refine ⟨v, ?_, hvoid⟩
        rw [List.cons_append, dropSegments, hs, ← hparts]
        exact hdrop

theorem trimSegments_append {v : List (List UInt8)} (hv : ∀ s ∈ v, isVoidSegment s = true)
    (h : IsDescent names) : trimSegments (v ++ names) = names := by
  have hstay : ∀ {l : Place}, IsDescent l → l.dropWhile isVoidSegment = l := by
    intro l hl
    obtain ⟨n, m, rfl⟩ := List.exists_cons_of_ne_nil hl.ne_nil
    refine List.dropWhile_cons_of_neg ?_
    rw [isVoidSegment_of_isEntryName (hl.isEntryName n List.mem_cons_self)]
    exact Bool.false_ne_true
  have hreverse : IsDescent names.reverse :=
    ⟨by simpa using h.ne_nil, fun n hn => h.isEntryName n (List.mem_reverse.mp hn)⟩
  rw [trimSegments, List.dropWhile_append_of_pos hv, hstay h, hstay hreverse, List.reverse_reverse]

theorem exists_segments_of_isAbsolute (h : root.isAbsolute = true) :
    ∃ l, segments root.octets = [] :: l := by
  rw [isAbsolute, beq_iff_eq, List.head?_eq_some_iff] at h
  obtain ⟨r, hr⟩ := h
  rw [hr]
  exact ⟨segments r, List.splitOn_append_cons_self [] r⟩

theorem exists_segments_of_not_isAbsolute (hroot : root.octets ≠ [])
    (h : root.isAbsolute = false) : ∃ s l, segments root.octets = s :: l ∧ s ≠ [] := by
  obtain ⟨b, r, hr⟩ := List.exists_cons_of_ne_nil hroot
  have hb : b ≠ slash := by
    rintro rfl
    rw [isAbsolute, hr] at h
    cases h
  obtain ⟨s, l, hl⟩ := List.exists_cons_of_ne_nil (List.splitOn_ne_nil slash r)
  refine ⟨b :: s, l, ?_, List.cons_ne_nil b s⟩
  rw [hr, segments, List.splitOn_cons_eq_if_modifyHead, if_neg (by simpa using hb), hl]
  rfl

theorem exists_partOfSegment {s : List UInt8} (hne : s ≠ []) (hdot : s ≠ dot) :
    ∃ part, partOfSegment s = some part ∧ part ≠ .root ∧ part ≠ .here := by
  rw [partOfSegment, if_neg (by simpa using ⟨hne, hdot⟩)]
  split
  · exact ⟨.up, rfl, by decide, by decide⟩
  · exact ⟨.name s, rfl, by simp, by simp⟩

section

variable {p base : Path} {parts : List PathPart}

/-- An absolute base is taken away from an absolute path. -/
theorem stripParts?_of_root (hbase : base.parts = .root :: parts) (habs : p.isAbsolute = true) :
    p.stripParts? base = (dropSegments parts ((segments p.octets).drop 1)).map fun l =>
      ofSegments (trimSegments l) := by
  simp [stripParts?, hbase, habs]

/-- A base that begins with `.` is taken away from a path that does. -/
theorem stripParts?_of_here (hbase : base.parts = .here :: parts) (habs : p.isAbsolute = false)
    (hdot : (segments p.octets).head? = some dot) :
    p.stripParts? base = (dropSegments parts ((segments p.octets).drop 1)).map fun l =>
      ofSegments (trimSegments l) := by
  simp [stripParts?, hbase, habs, hdot]

/-- Any other base is taken away from a path that begins with neither. -/
theorem stripParts?_of_unmarked {part : PathPart} (hbase : base.parts = part :: parts)
    (hpart : part ≠ .root ∧ part ≠ .here) (habs : p.isAbsolute = false)
    (hdot : (segments p.octets).head? ≠ some dot) :
    p.stripParts? base = (dropSegments (part :: parts) (segments p.octets)).map fun l =>
      ofSegments (trimSegments l) := by
  cases part with
  | root => exact absurd rfl hpart.1
  | here => exact absurd rfl hpart.2
  | up => simp [stripParts?, hbase, habs, hdot]
  | name n => simp [stripParts?, hbase, habs, hdot]

end

/-- A path that has the stretches of a base, up to an empty one at its end, and then more, keeps
those when the base is taken away, with at most void ones before them. -/
theorem stripParts?_append {p base : Path} {s : List UInt8} {l more : List (List UInt8)}
    (hp : segments p.octets = s :: l ++ more)
    (hbase : segments base.octets = s :: l ∨ segments base.octets = s :: l ++ [[]])
    (hne : base.octets ≠ []) (habs : p.isAbsolute = base.isAbsolute) :
    ∃ v, (∀ r ∈ v, isVoidSegment r = true) ∧
      p.stripParts? base = some (ofSegments (trimSegments (v ++ more))) := by
  have hnames : (segments base.octets).filterMap partOfSegment
      = (s :: l).filterMap partOfSegment := by
    rcases hbase with hbase | hbase
    · rw [hbase]
    · rw [hbase, List.filterMap_append]
      exact List.append_nil _
  have hhead : (segments base.octets).head? = some s := by
    rcases hbase with hbase | hbase <;> rw [hbase] <;> rfl
  have hparts := parts_eq_append base
  rw [hnames, hhead] at hparts
  cases hroot : base.isAbsolute with
  | true =>
    obtain ⟨k, hk⟩ := exists_segments_of_isAbsolute hroot
    rw [hk] at hhead
    cases hhead
    obtain ⟨v, hdrop, hvoid⟩ := dropSegments_append l more
    rw [hroot, if_pos rfl, List.filterMap_cons_none rfl] at hparts
    refine ⟨v, hvoid, ?_⟩
    rw [stripParts?_of_root hparts (habs.trans hroot), hp]
    show Option.map _ (dropSegments (l.filterMap partOfSegment) (l ++ more)) = _
    rw [hdrop, Option.map_some]
  | false =>
    rw [hroot, if_neg Bool.false_ne_true] at hparts
    by_cases hdot : s = dot
    · subst hdot
      obtain ⟨v, hdrop, hvoid⟩ := dropSegments_append l more
      rw [if_pos (by simp), List.filterMap_cons_none rfl] at hparts
      refine ⟨v, hvoid, ?_⟩
      rw [stripParts?_of_here hparts (habs.trans hroot) (by rw [hp]; rfl), hp]
      show Option.map _ (dropSegments (l.filterMap partOfSegment) (l ++ more)) = _
      rw [hdrop, Option.map_some]
    · obtain ⟨v, hdrop, hvoid⟩ := dropSegments_append (s :: l) more
      obtain ⟨s', k, hk, hs⟩ := exists_segments_of_not_isAbsolute hne hroot
      rw [hk] at hhead
      cases hhead
      obtain ⟨part, hpart, hmark⟩ := exists_partOfSegment hs hdot
      rw [if_neg (by simpa using hdot), List.nil_append, List.filterMap_cons_some hpart] at hparts
      rw [List.filterMap_cons_some hpart] at hdrop
      refine ⟨v, hvoid, ?_⟩
      rw [stripParts?_of_unmarked hparts hmark (habs.trans hroot) (by simpa [hp] using hdot), hp,
        hdrop, Option.map_some]

/-- **A root is taken away again**, whatever its spelling. -/
theorem stripParts?_join (hroot : root.octets ≠ []) (h : IsDescent names) :
    (root.join (ofNames names)).stripParts? root = some (ofNames names) := by
  obtain ⟨l, hjoin, hl, hr⟩ := segments_join hroot h
  obtain ⟨s, l, rfl⟩ := List.exists_cons_of_ne_nil hl
  obtain ⟨v, hvoid, hstrip⟩ := stripParts?_append hjoin hr hroot (isAbsolute_join hroot h)
  rw [hstrip, trimSegments_append hvoid h]
  rfl

theorem stripParts?_here (h : IsDescent names) :
    (ofNames names).stripParts? (Path.ofText ".") = none := by
  have hparts : (Path.ofText ".").parts = [.here] := by decide
  rw [stripParts?, hparts, segments_ofNames h, head?_names_ne_dot h, Bool.false_and]
  rfl

end Path

/-- **Patterns see the names alone.** -/
theorem matchPath_join {root : Path} {names : Place} (hroot : root.octets ≠ [])
    (h : IsDescent names) : matchPath root (root.join (.ofNames names)) = .ofNames names := by
  obtain ⟨b, l, hl, -⟩ := Path.exists_cons_ofNames h
  have hempty : (Path.ofNames names).octets.isEmpty = false := by
    rw [hl]
    rfl
  simp only [matchPath, Path.stripParts?_join hroot h]
  rw [hempty, if_neg Bool.false_ne_true, Path.stripParts?_here h, Option.getD_none]

end PlaybookPolicy
