import PlaybookPolicy.Proofs.FilePath
import PlaybookPolicy.Proofs.RepeatedInit

/-!
# Trees that are built

A tree is built from one that holds nothing but the way to the working directory: directories and
links are made, and files are written.  Each change puts an entry where a path leads, and a path
leads to names that stand in directories.  So whatever is done, and in whatever order, entries have
names and stand in directories, no two of them at one place; and what was made stays what it is, but
for the content of files.

## Main definitions

* `FileTree.Sound` — what a tree keeps while it is built.
* `FileTree.CanPut` — there is a place for an entry.
* `FileTree.IsFound` — what a path leads to is a directory, or there is a place for an entry.
* `Change`, `FileTree.apply`, `FileTree.applyAll` — a change, and all changes in a row.
* `FileTree.bare` — the tree that others are built from.
* `FileTree.Puts` — all that a change of one entry can do.
* `FileTree.Grows` — what was made stays what it is.

## Main results

* `FileTree.Sound.isFound_locate` — **a path leads to a directory or to a place for an entry.**
* `FileTree.Sound.apply`, `FileTree.Sound.applyAll` — a change keeps a tree sound and takes nothing
  away, and so do all in a row.
* `FileTree.Sound.run` — so does a run of the program.
* `FileTree.wellFormed_of_built` — **a tree that is built is well-formed.**
-/

namespace PlaybookPolicy

namespace FileTree

variable {t t' t'' : FileTree} {p : Path} {place q : Place} {node : Node}

/-! ### Places for entries -/

/-- What a tree keeps while it is built. -/
structure Sound (t : FileTree) : Prop where
  wellFormed : t.WellFormed
  here : t.node? t.here = some .directory
  /-- A link leads to a path, which holds no octet of zero. -/
  targets : ∀ q target, t.node? q = some (.link target) → 0 ∉ target.octets

/-- There is a place for an entry: it has a name, stands in a directory and would not take the place
of one. -/
structure CanPut (t : FileTree) (place : Place) : Prop where
  descent : IsDescent place
  parents : ∀ k < place.length, t.node? (place.take k) = some .directory
  notDirectory : t.node? place ≠ some .directory

theorem CanPut.node?_insert_directory (h : t.CanPut place) (hq : t.node? q = some .directory) :
    (t.insert place node).node? q = some .directory := by
  rw [node?_insert_of_ne, hq]
  rintro rfl
  exact h.notDirectory hq

theorem mem_insertNode {e : Place × Node} : ∀ {l : List (Place × Node)},
    e ∈ insertNode place node l → e = (place, node) ∨ e ∈ l := by
  intro l
  induction l with
  | nil => exact fun h => .inl (List.mem_singleton.mp h)
  | cons d l ih =>
    intro h
    rw [insertNode] at h
    split at h
    · rcases List.mem_cons.mp h with h | h
      · exact .inl h
      · exact .inr (List.mem_cons_of_mem d h)
    · rcases List.mem_cons.mp h with rfl | h
      · exact .inr List.mem_cons_self
      · exact (ih h).imp_right (List.mem_cons_of_mem d)

theorem map_fst_insertNode (place : Place) (node : Node) : ∀ l : List (Place × Node),
    (insertNode place node l).map Prod.fst =
      if place ∈ l.map Prod.fst then l.map Prod.fst else l.map Prod.fst ++ [place] := by
  intro l
  induction l with
  | nil => rfl
  | cons d l ih =>
    rw [insertNode]
    by_cases hplace : d.1 = place
    · rw [if_pos hplace, List.map_cons, List.map_cons, hplace, if_pos List.mem_cons_self]
    · rw [if_neg hplace, List.map_cons, List.map_cons, ih]
      simp only [List.mem_cons, Ne.symm hplace, false_or]
      split <;> rfl

theorem nodup_map_fst_insertNode {l : List (Place × Node)} (h : (l.map Prod.fst).Nodup) :
    ((insertNode place node l).map Prod.fst).Nodup := by
  rw [map_fst_insertNode]
  split
  · exact h
  · next hplace =>
    exact (List.perm_append_singleton place _).nodup_iff.mpr (List.nodup_cons.mpr ⟨hplace, h⟩)

/-- **An entry that is put in its place leaves the tree well-formed.** -/
theorem WellFormed.insert (ht : t.WellFormed) (h : t.CanPut place) :
    (t.insert place node).WellFormed where
  names := by
    intro e he
    rcases mem_insertNode he with rfl | he
    · exact h.descent
    · exact ht.names e he
  parents := by
    intro e he k hk
    apply h.node?_insert_directory
    rcases mem_insertNode he with rfl | he
    · exact h.parents k hk
    · exact ht.parents e he k hk
  distinct := nodup_map_fst_insertNode ht.distinct

theorem Sound.insert (ht : t.Sound) (h : t.CanPut place)
    (hnode : ∀ target, node = .link target → 0 ∉ target.octets) :
    (t.insert place node).Sound where
  wellFormed := ht.wellFormed.insert h
  here := h.node?_insert_directory ht.here
  targets := by
    intro q target hq
    by_cases hplace : q = place
    · rw [hplace, node?_insert_self h.descent.ne_nil] at hq
      exact hnode target (Option.some.inj hq)
    · rw [node?_insert_of_ne hplace] at hq
      exact ht.targets q target hq

/-! ### What paths lead to -/

/-- What stands in a tree but is no directory can be replaced. -/
theorem WellFormed.canPut_of_node? (ht : t.WellFormed) (hq : t.node? q = some node)
    (hnode : node ≠ .directory) : t.CanPut q := by
  have hdirectory : t.node? q ≠ some .directory := by
    rw [hq]
    exact fun h => hnode (Option.some.inj h)
  have hmem := mem_nodes_of_node? (ne_nil_of_node? hdirectory) hq
  exact ⟨ht.names _ hmem, ht.parents _ hmem, hdirectory⟩

/-- A directory has a place for a name of nothing. -/
theorem WellFormed.canPut_child (ht : t.WellFormed) (hq : t.node? q = some .directory)
    {n : EntryName} (hn : IsEntryName n) (hnone : t.node? (q ++ [n]) = none) :
    t.CanPut (q ++ [n]) where
  descent := by
    refine ⟨by simp, List.forall_mem_append.mpr ⟨fun m hm => ?_, by simpa using hn⟩⟩
    have hmem := mem_nodes_of_node? (List.ne_nil_of_mem hm) hq
    exact (ht.names _ hmem).isEntryName m hm
  parents := by
    intro k hk
    rw [List.length_append, List.length_singleton] at hk
    rw [List.take_append_of_le_length (by omega)]
    by_cases hlt : k < q.length
    · have hne : q ≠ [] := List.ne_nil_of_length_pos (by omega)
      exact ht.parents _ (mem_nodes_of_node? hne hq) k hlt
    · rwa [List.take_of_length_le (by omega)]
  notDirectory := by simp [hnone]

/-- What was found stands at its place, and there is a place for an entry unless it is a directory.
-/
structure IsFound (t : FileTree) (found : Located) : Prop where
  node : found.node? = t.node? found.place
  canPut : found.node? ≠ some .directory → t.CanPut found.place

/-- If something was found, it is in the tree. -/
def FindsInside (t : FileTree) (r : Except FileError Located) : Prop :=
  ∀ found, r = .ok found → t.IsFound found

theorem findsInside_error (e : FileError) : t.FindsInside (.error e) := by
  intro found h
  cases h

theorem FindsInside.ite {c : Prop} [Decidable c] {a b : Except FileError Located}
    (ha : c → t.FindsInside a) (hb : ¬c → t.FindsInside b) :
    t.FindsInside (if c then a else b) := by
  split
  · next h => exact ha h
  · next h => exact hb h

theorem WellFormed.findsInside_of_node? (ht : t.WellFormed) (hq : t.node? q ≠ none) :
    t.FindsInside (.ok ⟨q, t.node? q⟩) := by
  intro found h
  cases h
  refine ⟨rfl, fun hdirectory => ?_⟩
  obtain ⟨node, hnode⟩ := Option.ne_none_iff_exists'.mp hq
  refine ht.canPut_of_node? hnode ?_
  rintro rfl
  exact hdirectory hnode

theorem WellFormed.findsInside_child (ht : t.WellFormed) (hq : t.node? q = some .directory)
    {n : EntryName} (hn : IsEntryName n) (hnone : t.node? (q ++ [n]) = none) :
    t.FindsInside (.ok ⟨q ++ [n], none⟩) := by
  intro found h
  cases h
  exact ⟨hnone.symm, fun _ => ht.canPut_child hq hn hnone⟩

section

variable {follow : Bool} {enter : Place → List (List UInt8) → Except FileError Located}
  {segs : List (List UInt8)}

/-- The stretches hold neither slashes nor octets of zero, as those of a path do not. -/
def AreStretches (segs : List (List UInt8)) : Prop :=
  ∀ s ∈ segs, Path.slash ∉ s ∧ 0 ∉ s

theorem areStretches_segments {l : List UInt8} (h : 0 ∉ l) :
    AreStretches (Path.segments l) := by
  intro s hs
  obtain ⟨hslash, hsubset⟩ := Path.stretch_of_mem_segments hs
  exact ⟨hslash, fun hmem => h (hsubset hmem)⟩

/-- From stretch to stretch the way goes over what is there, so what it comes to is in the tree. -/
theorem Sound.findsInside_followSegments (ht : t.Sound)
    (henter : ∀ q segs, t.node? q = some .directory → AreStretches segs →
      t.FindsInside (enter q segs))
    (hsegs : AreStretches segs) (hq : t.node? q ≠ none) :
    t.FindsInside (t.followSegments follow enter q segs) := by
  induction segs generalizing q with
  | nil => exact ht.wellFormed.findsInside_of_node? hq
  | cons s rest ih =>
    obtain ⟨⟨hslash, hnul⟩, hrest⟩ := List.forall_mem_cons.mp hsegs
    have hup : t.node? q = some .directory → t.node? q.dropLast ≠ none := by
      intro hdirectory
      simp [(rooted_of_wellFormed ht.wellFormed ht.here).up q hdirectory]
    rw [followSegments]
    refine .ite (fun _ => findsInside_error _) fun hdirectory => ?_
    rw [not_not] at hdirectory
    refine .ite (fun _ => ih hrest hq) fun hvoid => .ite (fun _ => ih hrest (hup hdirectory))
      fun hdots => .ite (fun _ => findsInside_error _) fun hlength => ?_
    -- a stretch that is not passed over is the name of an entry
    have hname : IsEntryName s :=
      { ne_nil := by rintro rfl; exact hvoid rfl
        ne_dot := by rintro rfl; exact hvoid rfl
        ne_dotDot := by rintro rfl; exact hdots rfl
        slash_notMem := hslash
        nul_notMem := hnul
        length_le := by omega }
    dsimp only
    split
    · next hnone =>
      exact .ite (fun _ => ht.wellFormed.findsInside_child hdirectory hname hnone)
        fun _ => findsInside_error _
    · next target hlink =>
      refine .ite (fun _ => ?_) fun _ => ?_
      · rw [← hlink]
        exact ht.wellFormed.findsInside_of_node? (by simp [hlink])
      · refine henter _ _ ?_ (List.forall_mem_append.mpr
          ⟨areStretches_segments (ht.targets _ _ hlink), hrest⟩)
        split
        · rfl
        · exact hdirectory
    · next hchild => exact ih hrest (by simp [hchild])

theorem Sound.findsInside_followLinks (ht : t.Sound) {n : Nat} (hsegs : AreStretches segs)
    (hq : t.node? q = some .directory) : t.FindsInside (t.followLinks follow n q segs) := by
  induction n generalizing q segs with
  | zero =>
    exact ht.findsInside_followSegments (fun _ _ _ _ => findsInside_error _) hsegs (by simp [hq])
  | succ n ih =>
    exact ht.findsInside_followSegments (fun _ _ hq hsegs => ih hsegs hq) hsegs (by simp [hq])

/-- **A path leads to a directory or to a place for an entry**, if it leads to a place. -/
theorem Sound.isFound_locate (ht : t.Sound) {found : Located}
    (h : t.locate follow p = .ok found) : t.IsFound found := by
  have hinside : t.FindsInside (t.locate follow p) := by
    unfold locate
    refine .ite (fun _ => findsInside_error _) fun _ => .ite (fun _ => findsInside_error _)
      fun hnul => .ite (fun _ => findsInside_error _) fun _ => ?_
    apply ht.findsInside_followLinks
    · exact areStretches_segments (by simpa using hnul)
    · split
      · rfl
      · exact ht.here
  exact hinside found h

end

end FileTree

/-! ### Changes -/

/-- A change of a tree. -/
inductive Change where
  /-- A file is written. -/
  | write (p : Path) (content : List UInt8)
  /-- A directory is made. -/
  | makeDirectory (p : Path)
  /-- All directories on the way of a path are made. -/
  | makeDirectories (p : Path)
  /-- A link is made, to what is a path. -/
  | link (p target : Path) (h : 0 ∉ target.octets)

namespace FileTree

variable {t t' t'' : FileTree} {p : Path} {place q : Place} {node : Node}

/-- The tree after a change.  A file that cannot be written leaves the tree as it is. -/
def apply (t : FileTree) : Change → FileTree
  | .write p content =>
    match t.write p content with
    | .ok after => after
    | .error _ => t
  | .makeDirectory p => t.makeDirectory p
  | .makeDirectories p => t.makeDirectories p
  | .link p target _ => t.link p target

/-- The tree after all changes. -/
def applyAll (t : FileTree) (l : List Change) : FileTree :=
  l.foldl apply t

/-- The tree with nothing in it but the way to a working directory. -/
def bare (here : Place) : FileTree where
  nodes := (List.range here.length).map fun k => (here.take (k + 1), .directory)
  here := here

/-- All that a change of one entry can do: nothing, or to make an entry where there is a place for
one and nothing in it, or to write a file anew. -/
inductive Puts (t : FileTree) : FileTree → Prop
  | nothing : Puts t t
  | made {place : Place} {node : Node} (hplace : t.CanPut place) (hnone : t.node? place = none)
      (htarget : ∀ target, node = .link target → 0 ∉ target.octets) :
      Puts t (t.insert place node)
  | written {place : Place} {before content : List UInt8} (hplace : t.CanPut place)
      (hfile : t.node? place = some (.file before)) : Puts t (t.insert place (.file content))

theorem Sound.puts_write (ht : t.Sound) {content : List UInt8}
    (h : t.write p content = .ok t') : t.Puts t' := by
  unfold write at h
  split at h
  · cases h
  · next found hlocate =>
    obtain ⟨place, node?⟩ := found
    have hfound := ht.isFound_locate hlocate
    split at h
    · cases h
    · next hdirectory =>
      cases h
      have hplace := hfound.canPut hdirectory
      cases hnode : t.node? place with
      | none => exact .made hplace hnode fun target hlink => by cases hlink
      | some node =>
        cases node with
        | file before => exact .written hplace hnode
        | directory => exact absurd hnode hplace.notDirectory
        | link target =>
          -- a path ends at no link
          have hr := rooted_of_wellFormed ht.wellFormed ht.here
          exact absurd hnode (hr.not_link ⟨node?, hlocate⟩ target)

theorem Sound.puts_makeDirectory (ht : t.Sound) (p : Path) : t.Puts (t.makeDirectory p) := by
  unfold makeDirectory
  split
  · next place hlocate =>
    have hfound := ht.isFound_locate hlocate
    exact .made (hfound.canPut (by simp)) hfound.node.symm fun target hlink => by cases hlink
  · exact .nothing

theorem Sound.puts_link (ht : t.Sound) (p : Path) {target : Path} (h : 0 ∉ target.octets) :
    t.Puts (t.link p target) := by
  unfold link
  split
  · next place hlocate =>
    have hfound := ht.isFound_locate hlocate
    exact .made (hfound.canPut (by simp)) hfound.node.symm fun _ hlink => by cases hlink; exact h
  · exact .nothing

/-! ### What changes keep -/

theorem Sound.of_puts (ht : t.Sound) (h : t.Puts t') : t'.Sound := by
  cases h with
  | nothing => exact ht
  | made hplace hnone htarget => exact ht.insert hplace htarget
  | written hplace hfile => exact ht.insert hplace fun target hlink => by cases hlink

/-- What was made stays what it is, but for the content of files. -/
structure Grows (t t' : FileTree) : Prop where
  here : t'.here = t.here
  directory : ∀ q, t.node? q = some .directory → t'.node? q = some .directory
  link : ∀ q target, t.node? q = some (.link target) → t'.node? q = some (.link target)
  file : ∀ q l, t.node? q = some (.file l) → ∃ l', t'.node? q = some (.file l')

theorem Grows.refl (t : FileTree) : t.Grows t :=
  ⟨rfl, fun _ h => h, fun _ _ h => h, fun _ l h => ⟨l, h⟩⟩

theorem Grows.trans (h : t.Grows t') (h' : t'.Grows t'') : t.Grows t'' where
  here := h'.here.trans h.here
  directory q hq := h'.directory q (h.directory q hq)
  link q target hq := h'.link q target (h.link q target hq)
  file q l hq := by
    obtain ⟨l', hq'⟩ := h.file q l hq
    exact h'.file q l' hq'

theorem Puts.grows (h : t.Puts t') : t.Grows t' := by
  cases h with
  | nothing => exact .refl t
  | @made place node hplace hnone htarget =>
    have hother : ∀ {q node'}, t.node? q = some node' →
        (t.insert place node).node? q = some node' := by
      intro q node' hq
      rw [node?_insert_of_ne, hq]
      rintro rfl
      cases hnone.symm.trans hq
    exact ⟨rfl, fun _ => hother, fun _ _ => hother, fun _ l hq => ⟨l, hother hq⟩⟩
  | @written place before content hplace hfile =>
    have hwrites : t.WritesFiles (t.insert place (.file content)) :=
      writesFiles_insert (.inr ⟨before, hfile⟩)
    refine ⟨rfl, fun q => hwrites.directory_iff.mpr, fun q target hq => ?_, fun q l =>
      hwrites.exists_file⟩
    rcases hwrites.node q with hsame | ⟨-, hnone | ⟨l, hl⟩⟩
    · exact hsame.trans hq
    · cases hq.symm.trans hnone
    · cases hq.symm.trans hl

/-- What a change of one entry keeps. -/
theorem Sound.keeps (ht : t.Sound) (h : t.Puts t') : t'.Sound ∧ t.Grows t' :=
  ⟨ht.of_puts h, h.grows⟩

/-- A change keeps a tree sound, and takes nothing away. -/
theorem Sound.apply (ht : t.Sound) (c : Change) : (t.apply c).Sound ∧ t.Grows (t.apply c) := by
  cases c with
  | write p content =>
    unfold FileTree.apply
    dsimp only
    split
    · next after h => exact ht.keeps (ht.puts_write h)
    · exact ht.keeps .nothing
  | makeDirectory p => exact ht.keeps (ht.puts_makeDirectory p)
  | makeDirectories p =>
    -- the directories are made one by one, from the first stretch of the path on
    show (t.makeDirectories p).Sound ∧ t.Grows (t.makeDirectories p)
    unfold makeDirectories
    refine List.foldlRecOn (motive := fun t' => t'.Sound ∧ t.Grows t') _ _ ⟨ht, .refl t⟩
      fun t' ⟨hsound, hgrows⟩ i _ => ?_
    obtain ⟨hsound', hgrows'⟩ := hsound.keeps (hsound.puts_makeDirectory
      (Path.ofSegments ((Path.segments p.octets).take (i + 1))))
    exact ⟨hsound', hgrows.trans hgrows'⟩
  | link p target h => exact ht.keeps (ht.puts_link p h)

/-- All changes in a row keep a tree sound, and take nothing away. -/
theorem Sound.applyAll (ht : t.Sound) (l : List Change) :
    (t.applyAll l).Sound ∧ t.Grows (t.applyAll l) := by
  induction l generalizing t with
  | nil => exact ⟨ht, .refl t⟩
  | cons c l ih =>
    obtain ⟨hsound, hgrows⟩ := ht.apply c
    obtain ⟨hsound', hgrows'⟩ := ih hsound
    exact ⟨hsound', hgrows.trans hgrows'⟩

/-- A fresh configuration is written, or nothing happens. -/
theorem Sound.puts_initHere (ht : t.Sound) (force : Bool) : t.Puts (t.initHere force).2 := by
  unfold initHere initIn
  cases hwrite : t.write ((Path.ofText ".").join (Path.ofText configFileName))
      (Text.Utf8.encode configTemplate) with
  | error e =>
    simp only [Except.map, hwrite]
    split_ifs <;> exact .nothing
  | ok after =>
    have hputs := ht.puts_write hwrite
    simp only [Except.map, hwrite]
    split_ifs
    · exact .nothing
    · exact hputs
    · exact hputs

/-- A run of the program keeps a tree sound and takes nothing away, whatever it is asked for. -/
theorem Sound.run (ht : t.Sound) (args : List String) :
    (t.run args).2.Sound ∧ t.Grows (t.run args).2 := by
  apply ht.keeps
  unfold FileTree.run
  cases Invocation.ofArguments args with
  | error e => exact .nothing
  | ok i =>
    show t.Puts (t.execute i).2
    unfold execute
    -- only one command changes anything
    cases i.command with
    | check options => exact .nothing
    | list options => exact .nothing
    | init force => exact ht.puts_initHere force

/-! ### Trees built from the way to a directory -/

section Bare

variable {here : Place}

theorem mem_nodes_bare {e : Place × Node} :
    e ∈ (bare here).nodes ↔ ∃ k < here.length, e = (here.take (k + 1), .directory) := by
  simp only [bare, List.mem_map, List.mem_range, eq_comm]

theorem distinct_bare (here : Place) : ((bare here).nodes.map Prod.fst).Nodup := by
  unfold bare
  rw [List.map_map, List.nodup_iff_pairwise_ne, List.pairwise_map]
  -- the places are of different lengths
  refine List.pairwise_lt_range.imp_of_mem fun hj hk hlt heq => ?_
  rw [List.mem_range] at hj hk
  have hlength := congrArg List.length heq
  simp only [Function.comp_apply, List.length_take] at hlength
  omega

/-- The way to the working directory consists of directories. -/
theorem node?_bare {k : Nat} (hk : k ≤ here.length) :
    (bare here).node? (here.take k) = some .directory := by
  cases k with
  | zero => rfl
  | succ k =>
    have hne : here.take (k + 1) ≠ [] := List.ne_nil_of_length_pos (by simp; omega)
    rw [node?, if_neg (by simpa using hne)]
    exact lookup_of_mem (distinct_bare here) (mem_nodes_bare.mpr ⟨k, hk, rfl⟩)

theorem sound_bare (hnames : ∀ n ∈ here, IsEntryName n) : (bare here).Sound where
  wellFormed :=
    { names := by
        intro e he
        obtain ⟨k, hk, rfl⟩ := mem_nodes_bare.mp he
        exact ⟨List.ne_nil_of_length_pos (by simp; omega), fun n hn =>
          hnames n (List.mem_of_mem_take hn)⟩
      parents := by
        intro e he j hj
        obtain ⟨k, hk, rfl⟩ := mem_nodes_bare.mp he
        dsimp only at hj ⊢
        rw [List.length_take] at hj
        rw [List.take_take]
        exact node?_bare (by omega)
      distinct := distinct_bare here }
  here := by
    have hnode : (bare here).node? (here.take here.length) = some .directory :=
      node?_bare (Nat.le_refl _)
    rwa [List.take_length] at hnode
  targets := by
    intro q target hq
    have hne : q ≠ [] := by
      rintro rfl
      cases hq
    obtain ⟨k, -, heq⟩ := mem_nodes_bare.mp (mem_nodes_of_node? hne hq)
    cases heq

end Bare

/-- **A tree that is built is well-formed**, whatever is written and made in whatever order, and its
working directory stays where it was. -/
theorem wellFormed_of_built {here : Place} (hnames : ∀ n ∈ here, IsEntryName n)
    (l : List Change) :
    ((bare here).applyAll l).WellFormed ∧ ((bare here).applyAll l).here = here ∧
      ((bare here).applyAll l).node? here = some .directory := by
  obtain ⟨hsound, hgrows⟩ := (sound_bare hnames).applyAll l
  have hhere : ((bare here).applyAll l).here = here := hgrows.here
  have hnode := hsound.here
  rw [hhere] at hnode
  exact ⟨hsound.wellFormed, hhere, hnode⟩

end FileTree

end PlaybookPolicy
