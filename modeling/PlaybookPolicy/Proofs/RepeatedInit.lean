import PlaybookPolicy.Proofs.NewFile

/-!
# Configurations written one after the other

Fresh configurations are written into any directories, one after the other, with or without force.
What is written is a file, and it stands where a file or nothing stood; so the directories and the
links stay, and every path leads to the same place all the way.  From this it follows step by step
what a run of any length keeps.

## Main definitions

* `FileTree.WritesFiles` — files were made or written anew, and nothing else happened.
* `FileTree.Inits` — all that one step can do.
* `FileTree.initStep`, `FileTree.initAll` — one step, and a run.
* `FileTree.SoundInit` — what can be told from the answer of a step.

## Main results

* `FileTree.WritesFiles.leadsTo_iff` — **a path leads where it led before.**
* `FileTree.inits_initStep` — a step does nothing else.
* `FileTree.writesFiles_initAll` — a run makes and writes files only.
* `FileTree.initAll_sound` — **without force no configuration is lost.**
-/

namespace PlaybookPolicy

namespace FileTree

variable {t t' t'' : FileTree} {p : Path} {place : Place}

/-! ### Trees that differ in files -/

/-- Files were made or written anew, and nothing else happened: a place holds what it held before,
or a file where there was a file or nothing. -/
structure WritesFiles (t t' : FileTree) : Prop where
  here : t'.here = t.here
  node : ∀ q, t'.node? q = t.node? q ∨
    (∃ l, t'.node? q = some (.file l)) ∧ (t.node? q = none ∨ ∃ l, t.node? q = some (.file l))

theorem WritesFiles.refl (t : FileTree) : t.WritesFiles t :=
  ⟨rfl, fun _ => .inl rfl⟩

theorem WritesFiles.trans (h : t.WritesFiles t') (h' : t'.WritesFiles t'') :
    t.WritesFiles t'' := by
  refine ⟨h'.here.trans h.here, fun q => ?_⟩
  rcases h.node q with hsame | ⟨hfile, hbefore⟩ <;>
    rcases h'.node q with hsame' | ⟨hfile', hbefore'⟩
  · exact .inl (hsame'.trans hsame)
  · exact .inr ⟨hfile', hsame ▸ hbefore'⟩
  · exact .inr ⟨hsame' ▸ hfile, hbefore⟩
  · exact .inr ⟨hfile', hbefore⟩

theorem writesFiles_insert {content : List UInt8}
    (h : t.node? place = none ∨ ∃ l, t.node? place = some (.file l)) :
    t.WritesFiles (t.insert place (.file content)) := by
  refine ⟨rfl, fun q => ?_⟩
  by_cases hq : q = place
  · subst hq
    have hne : q ≠ [] := ne_nil_of_node? (t := t) (by rcases h with h | ⟨l, h⟩ <;> simp [h])
    exact .inr ⟨⟨content, node?_insert_self hne⟩, h⟩
  · exact .inl (node?_insert_of_ne hq)

theorem WritesFiles.directory_iff (h : t.WritesFiles t') :
    t'.node? place = some .directory ↔ t.node? place = some .directory := by
  rcases h.node place with hsame | ⟨⟨l', hfile⟩, hnone | ⟨l, hfile'⟩⟩ <;> simp [*]

/-- A file stays a file. -/
theorem WritesFiles.exists_file (h : t.WritesFiles t') {l : List UInt8}
    (hfile : t.node? place = some (.file l)) : ∃ l', t'.node? place = some (.file l') := by
  rcases h.node place with hsame | ⟨hfile', -⟩
  · exact ⟨l, hsame.trans hfile⟩
  · exact hfile'

/-! ### Where paths lead -/

/-- The place that was found. -/
def placeOf? (r : Except FileError Located) : Option Place :=
  r.toOption.map Located.place

theorem leadsTo_iff : t.LeadsTo p place ↔ placeOf? (t.locate true p) = some place := by
  rw [LeadsTo, placeOf?]
  cases t.locate true p with
  | error e => simp [Except.toOption]
  | ok found =>
    obtain ⟨place', node?⟩ := found
    simp [Except.toOption]

instance : Decidable (t.LeadsTo p place) :=
  decidable_of_iff _ leadsTo_iff.symm

theorem placeOf?_ite {c : Prop} [Decidable c] {a b a' b' : Except FileError Located}
    (ha : placeOf? a' = placeOf? a) (hb : placeOf? b' = placeOf? b) :
    placeOf? (if c then a' else b') = placeOf? (if c then a else b) := by
  split
  · exact ha
  · exact hb

section

variable {enter enter' : Place → List (List UInt8) → Except FileError Located}
  {segs : List (List UInt8)} {q : Place}

/-- Nothing is behind a file. -/
theorem placeOf?_followSegments_file {l : List UInt8} (hq : t.node? q = some (.file l)) :
    placeOf? (t.followSegments true enter q segs) = if segs.isEmpty then some q else none := by
  cases segs with
  | nil => rfl
  | cons s rest =>
    rw [followSegments, if_pos (by simp [hq])]
    rfl

theorem WritesFiles.placeOf?_followSegments (h : t.WritesFiles t')
    (henter : ∀ q segs, placeOf? (enter' q segs) = placeOf? (enter q segs)) :
    placeOf? (t'.followSegments true enter' q segs) =
      placeOf? (t.followSegments true enter q segs) := by
  induction segs generalizing q with
  | nil => rfl
  | cons s rest ih =>
    rw [followSegments, followSegments]
    simp only [ne_eq, h.directory_iff]
    refine placeOf?_ite rfl (placeOf?_ite ih (placeOf?_ite ih (placeOf?_ite rfl ?_)))
    -- only what stands at the next name may differ
    rcases h.node (q ++ [s]) with hsame | ⟨⟨l', hafter⟩, hnone | ⟨l, hbefore⟩⟩
    · rw [hsame]
      split
      · rfl
      · exact placeOf?_ite rfl (henter _ _)
      · exact ih
    · -- a name of nothing leads as far as the name of a file
      simp only [hafter, hnone, placeOf?_followSegments_file hafter]
      split <;> rfl
    · simp only [hafter, hbefore, placeOf?_followSegments_file hafter,
        placeOf?_followSegments_file hbefore]

theorem WritesFiles.placeOf?_followLinks (h : t.WritesFiles t') {n : Nat} :
    placeOf? (t'.followLinks true n q segs) = placeOf? (t.followLinks true n q segs) := by
  induction n generalizing q segs with
  | zero => exact h.placeOf?_followSegments fun _ _ => rfl
  | succ n ih => exact h.placeOf?_followSegments fun _ _ => ih

end

/-- **A path leads where it led before.** -/
theorem WritesFiles.leadsTo_iff (h : t.WritesFiles t') :
    t'.LeadsTo p place ↔ t.LeadsTo p place := by
  rw [FileTree.leadsTo_iff, FileTree.leadsTo_iff, locate, locate, h.here]
  exact Eq.congr_left
    (placeOf?_ite rfl (placeOf?_ite rfl (placeOf?_ite rfl h.placeOf?_followLinks)))

theorem LeadsTo.unique {place' : Place} (h : t.LeadsTo p place) (h' : t.LeadsTo p place') :
    place = place' := by
  rw [leadsTo_iff] at h h'
  exact Option.some.inj (h.symm.trans h')

theorem LeadsTo.locate (h : t.LeadsTo p place) :
    t.locate true p = .ok ⟨place, t.node? place⟩ := by
  obtain ⟨node?, hlocate⟩ := h
  rw [hlocate, node?_of_locate hlocate]

/-! ### Paths end at no link -/

/-- Paths start in a directory, and go up from directories to directories. -/
structure Rooted (t : FileTree) : Prop where
  here : t.node? t.here = some .directory
  up : ∀ q, t.node? q = some .directory → t.node? q.dropLast = some .directory

theorem rooted_of_wellFormed (h : t.WellFormed) (hhere : t.node? t.here = some .directory) :
    t.Rooted := by
  refine ⟨hhere, fun q hq => ?_⟩
  by_cases hne : q = []
  · rw [hne]
    rfl
  · rw [List.dropLast_eq_take]
    exact h.parents _ (mem_nodes_of_node? hne hq) (q.length - 1)
      (Nat.sub_one_lt (List.length_pos_iff.mpr hne).ne')

theorem Rooted.of_writesFiles (hr : t.Rooted) (h : t.WritesFiles t') : t'.Rooted := by
  refine ⟨?_, fun q hq => ?_⟩
  · rw [h.here]
    exact h.directory_iff.mpr hr.here
  · exact h.directory_iff.mpr (hr.up q (h.directory_iff.mp hq))

/-- No link was found. -/
def FindsNoLink (r : Except FileError Located) : Prop :=
  ∀ place target, r ≠ .ok ⟨place, some (.link target)⟩

theorem findsNoLink_error (e : FileError) : FindsNoLink (.error e) := by
  intro place target h
  cases h

theorem FindsNoLink.ite {c : Prop} [Decidable c] {a b : Except FileError Located}
    (ha : c → FindsNoLink a) (hb : ¬c → FindsNoLink b) : FindsNoLink (if c then a else b) := by
  split
  · next h => exact ha h
  · next h => exact hb h

theorem Rooted.findsNoLink_followSegments (hr : t.Rooted)
    {enter : Place → List (List UInt8) → Except FileError Located}
    (henter : ∀ q segs, t.node? q = some .directory → FindsNoLink (enter q segs))
    {segs : List (List UInt8)} {q : Place} (hq : ∀ target, t.node? q ≠ some (.link target)) :
    FindsNoLink (t.followSegments true enter q segs) := by
  induction segs generalizing q with
  | nil =>
    intro place target h
    obtain ⟨-, hnode⟩ := Located.mk.inj (Except.ok.inj h)
    exact hq target hnode
  | cons s rest ih =>
    rw [followSegments]
    refine .ite (fun _ => findsNoLink_error _) fun hdirectory => ?_
    rw [not_not] at hdirectory
    have hup : ∀ target, t.node? q.dropLast ≠ some (.link target) := by
      simp [hr.up q hdirectory]
    refine .ite (fun _ => ih hq) fun _ => .ite (fun _ => ih hup) fun _ =>
      .ite (fun _ => findsNoLink_error _) fun _ => ?_
    simp only [Bool.not_true, Bool.and_false, Bool.false_eq_true, if_false]
    split
    · refine .ite (fun _ => ?_) fun _ => findsNoLink_error _
      intro place target h
      cases h
    · refine henter _ _ ?_
      split
      · rfl
      · exact hdirectory
    · next hlink hchild => exact ih fun target h => hlink target (Option.some.inj (hchild ▸ h))

theorem Rooted.findsNoLink_followLinks (hr : t.Rooted) {n : Nat} {segs : List (List UInt8)}
    {q : Place} (hq : t.node? q = some .directory) :
    FindsNoLink (t.followLinks true n q segs) := by
  induction n generalizing q segs with
  | zero => exact hr.findsNoLink_followSegments (fun _ _ _ => findsNoLink_error _) (by simp [hq])
  | succ n ih => exact hr.findsNoLink_followSegments (fun _ _ hq => ih hq) (by simp [hq])

/-- A path never ends at a link. -/
theorem Rooted.not_link (hr : t.Rooted) (h : t.LeadsTo p place) (target : Path) :
    t.node? place ≠ some (.link target) := by
  have hstart : t.node? (if p.isAbsolute then [] else t.here) = some .directory := by
    split
    · rfl
    · exact hr.here
  intro hnode
  have hfollow := followLinks_of_locate h.locate
  rw [hnode] at hfollow
  exact hr.findsNoLink_followLinks hstart place target hfollow

end FileTree

/-! ### Steps -/

/-- A fresh configuration that is asked for in a directory. -/
structure InitStep where
  /-- The directory. -/
  directory : Path
  /-- A configuration that exists is written anew. -/
  force : Bool
  deriving DecidableEq

/-- The path of the configuration. -/
def InitStep.file (s : InitStep) : Path :=
  s.directory.join (.ofText configFileName)

namespace FileTree

variable {t t' : FileTree} {p : Path} {place : Place} {s : InitStep}
  {answer : Except FileError InitResult} {after : FileTree}

/-- The tree with a fresh configuration at a place. -/
def withConfigAt (t : FileTree) (place : Place) : FileTree :=
  t.insert place (.file (Text.Utf8.encode configTemplate))

/-- The answer of a step and the tree after it.  A step that fails leaves the tree as it is. -/
def initStep (t : FileTree) (s : InitStep) : Except FileError InitResult × FileTree :=
  match t.initIn s.directory s.force with
  | .ok (result, after) => (.ok result, after)
  | .error e => (.error e, t)

/-- The tree after all steps. -/
def initAll (t : FileTree) (steps : List InitStep) : FileTree :=
  steps.foldl (fun t s => (t.initStep s).2) t

/-- All that a step can do: fail, if its path leads nowhere or force meets a directory; skip what
exists; make a file where there is nothing; or write anew, with force, what is no directory. -/
inductive Inits (t : FileTree) (s : InitStep) : Except FileError InitResult → FileTree → Prop
  | failed {e : FileError}
      (h : ∀ place, t.LeadsTo s.file place → s.force = true ∧ t.node? place = some .directory) :
      Inits t s (.error e) t
  | skipped {place : Place} {node : Node} (hforce : s.force = false)
      (hleads : t.LeadsTo s.file place) (hnode : t.node? place = some node) :
      Inits t s (.ok .skipped) t
  | created {place : Place} (hleads : t.LeadsTo s.file place) (hnode : t.node? place = none) :
      Inits t s (.ok .created) (t.withConfigAt place)
  | overwritten {place : Place} {node : Node} (hforce : s.force = true)
      (hleads : t.LeadsTo s.file place) (hnode : t.node? place = some node)
      (hdirectory : node ≠ .directory) : Inits t s (.ok .overwritten) (t.withConfigAt place)

/-- A step does nothing else. -/
theorem inits_initStep (t : FileTree) (s : InitStep) :
    t.Inits s (t.initStep s).1 (t.initStep s).2 := by
  rw [initStep, initIn, has, look, write, ← InitStep.file]
  cases hlocate : t.locate true s.file with
  | error e =>
    refine .failed fun place hleads => ?_
    obtain ⟨node?, hplace⟩ := hleads
    cases hlocate.symm.trans hplace
  | ok found =>
    obtain ⟨place, node?⟩ := found
    have hleads : t.LeadsTo s.file place := ⟨node?, hlocate⟩
    have hnode := node?_of_locate hlocate
    cases node? with
    | none => exact .created hleads hnode
    | some node =>
      cases hforce : s.force with
      | false => exact .skipped hforce hleads hnode
      | true =>
        by_cases hdirectory : node = .directory
        · subst hdirectory
          refine .failed fun place' hleads' => ⟨hforce, ?_⟩
          rw [← hleads.unique hleads', hnode]
        · simp only [Option.some.injEq, hdirectory, if_false]
          exact .overwritten hforce hleads hnode hdirectory

/-- A step makes and writes files only. -/
theorem Inits.writesFiles (hr : t.Rooted) (h : t.Inits s answer after) : t.WritesFiles after := by
  cases h with
  | failed h => exact .refl t
  | skipped hforce hleads hnode => exact .refl t
  | created hleads hnode => exact writesFiles_insert (.inl hnode)
  | @overwritten place node hforce hleads hnode hdirectory =>
    -- a path ends at no link, so what is written anew is a file
    refine writesFiles_insert (.inr ?_)
    cases node with
    | file l => exact ⟨l, hnode⟩
    | directory => exact absurd rfl hdirectory
    | link target => exact absurd hnode (hr.not_link hleads target)

/-- A place that no step with force writes keeps what it holds. -/
theorem Inits.node?_eq (h : t.Inits s answer after) (hnode : t.node? place ≠ none)
    (hforce : t.LeadsTo s.file place → s.force = false) :
    after.node? place = t.node? place := by
  cases h with
  | failed h => rfl
  | skipped hskip hleads hsome => rfl
  | created hleads hnone =>
    refine node?_insert_of_ne ?_
    rintro rfl
    exact hnode hnone
  | overwritten hoverwrite hleads hsome hdirectory =>
    refine node?_insert_of_ne ?_
    rintro rfl
    rw [hforce hleads] at hoverwrite
    cases hoverwrite

/-! ### What an answer says -/

/-- A fresh configuration was written where the path leads, and nothing else happened. -/
structure WritesConfig (t : FileTree) (p : Path) (place : Place) (after : FileTree) : Prop where
  leads : t.LeadsTo p place
  leadsAfter : after.LeadsTo p place
  node : after.node? place = some (.file (Text.Utf8.encode configTemplate))
  read : after.read p = .ok (Text.Utf8.encode configTemplate)
  others : ∀ q, q ≠ place → after.node? q = t.node? q
  here : after.here = t.here

/-- What can be told from the answer of a step. -/
structure SoundInit (t : FileTree) (s : InitStep) (answer : Except FileError InitResult)
    (after : FileTree) : Prop where
  unchanged : (answer = .ok .skipped ∨ ∃ e, answer = .error e) → after = t
  written : (answer = .ok .created ∨ answer = .ok .overwritten) →
    ∃ place, t.WritesConfig s.file place after
  created_iff : answer = .ok .created ↔ ∃ place, t.LeadsTo s.file place ∧ t.node? place = none
  overwritten_iff : answer = .ok .overwritten ↔
    s.force = true ∧ ∃ place l, t.LeadsTo s.file place ∧ t.node? place = some (.file l)
  skipped_iff : answer = .ok .skipped ↔
    s.force = false ∧ ∃ place node, t.LeadsTo s.file place ∧ t.node? place = some node

theorem writesConfig_withConfigAt (hwrites : t.WritesFiles (t.withConfigAt place))
    (hleads : t.LeadsTo p place) (hne : place ≠ []) :
    t.WritesConfig p place (t.withConfigAt place) := by
  have hafter := hwrites.leadsTo_iff.mpr hleads
  have hnode : (t.withConfigAt place).node? place =
      some (.file (Text.Utf8.encode configTemplate)) := node?_insert_self hne
  refine ⟨hleads, hafter, hnode, ?_, fun q hq => node?_insert_of_ne hq, rfl⟩
  simp only [read, hafter.locate, hnode]

theorem Inits.answer_of_none (h : t.Inits s answer after) (hleads : t.LeadsTo s.file place)
    (hnode : t.node? place = none) : answer = .ok .created := by
  cases h with
  | failed h =>
    rw [(h place hleads).2] at hnode
    cases hnode
  | created hleads' hnode' => rfl
  | skipped hforce hleads' hnode' | overwritten hforce hleads' hnode' =>
    rw [hleads.unique hleads', hnode'] at hnode
    cases hnode

theorem Inits.answer_of_some (h : t.Inits s answer after) (hleads : t.LeadsTo s.file place)
    {node : Node} (hnode : t.node? place = some node) (hdirectory : node ≠ .directory) :
    answer = .ok (if s.force then .overwritten else .skipped) := by
  cases h with
  | failed h =>
    rw [(h place hleads).2] at hnode
    exact absurd (Option.some.inj hnode).symm hdirectory
  | skipped hforce hleads' hnode' => rw [hforce]; rfl
  | created hleads' hnode' =>
    rw [hleads.unique hleads', hnode'] at hnode
    cases hnode
  | overwritten hforce hleads' hnode' => rw [hforce]; rfl

theorem Inits.answer_of_not_force (h : t.Inits s answer after) (hforce : s.force = false)
    (hleads : t.LeadsTo s.file place) {node : Node} (hnode : t.node? place = some node) :
    answer = .ok .skipped := by
  cases h with
  | failed h => cases hforce.symm.trans (h place hleads).1
  | skipped hforce' hleads' hnode' => rfl
  | created hleads' hnode' =>
    rw [hleads.unique hleads', hnode'] at hnode
    cases hnode
  | overwritten hforce' hleads' hnode' => cases hforce.symm.trans hforce'

theorem Inits.sound (hr : t.Rooted) (h : t.Inits s answer after) : t.SoundInit s answer after where
  unchanged hanswer := by
    cases h with
    | failed h => rfl
    | skipped hforce hleads hnode => rfl
    | created hleads hnode => simp at hanswer
    | overwritten hforce hleads hnode => simp at hanswer
  written hanswer := by
    have hwrites := h.writesFiles hr
    cases h with
    | failed h => simp at hanswer
    | skipped hforce hleads hnode => simp at hanswer
    | @created place hleads hnode =>
      have hne : place ≠ [] := ne_nil_of_node? (t := t) (by simp [hnode])
      exact ⟨place, writesConfig_withConfigAt hwrites hleads hne⟩
    | @overwritten place node hforce hleads hnode hdirectory =>
      have hne : place ≠ [] := ne_nil_of_node? (t := t) (by simp [hnode, hdirectory])
      exact ⟨place, writesConfig_withConfigAt hwrites hleads hne⟩
  created_iff := by
    constructor
    · rintro rfl
      cases h with
      | created hleads hnode => exact ⟨_, hleads, hnode⟩
    · rintro ⟨place, hleads, hnode⟩
      exact h.answer_of_none hleads hnode
  overwritten_iff := by
    constructor
    · rintro rfl
      cases h with
      | @overwritten place node hforce hleads hnode hdirectory =>
        cases node with
        | file l => exact ⟨hforce, place, l, hleads, hnode⟩
        | directory => exact absurd rfl hdirectory
        | link target => exact absurd hnode (hr.not_link hleads target)
    · rintro ⟨hforce, place, l, hleads, hnode⟩
      rw [h.answer_of_some hleads hnode (by simp), if_pos hforce]
  skipped_iff := by
    constructor
    · rintro rfl
      cases h with
      | skipped hforce hleads hnode => exact ⟨hforce, _, _, hleads, hnode⟩
    · rintro ⟨hforce, place, node, hleads, hnode⟩
      exact h.answer_of_not_force hforce hleads hnode

/-! ### Runs -/

theorem initAll_cons {steps : List InitStep} :
    t.initAll (s :: steps) = (t.initStep s).2.initAll steps :=
  rfl

theorem initAll_append {steps steps' : List InitStep} :
    t.initAll (steps ++ steps') = (t.initAll steps).initAll steps' :=
  List.foldl_append

/-- A run makes and writes files only. -/
theorem writesFiles_initAll {steps : List InitStep} (hr : t.Rooted) :
    t.WritesFiles (t.initAll steps) := by
  induction steps generalizing t with
  | nil => exact .refl t
  | cons s steps ih =>
    have hstep : t.WritesFiles (t.initStep s).2 := (inits_initStep t s).writesFiles hr
    exact hstep.trans (ih (hr.of_writesFiles hstep))

theorem Rooted.initAll {steps : List InitStep} (hr : t.Rooted) : (t.initAll steps).Rooted :=
  hr.of_writesFiles (writesFiles_initAll hr)

theorem node?_initAll {steps : List InitStep} (hr : t.Rooted) (hnode : t.node? place ≠ none)
    (hforce : ∀ s ∈ steps, t.LeadsTo s.file place → s.force = false) :
    (t.initAll steps).node? place = t.node? place := by
  induction steps generalizing t with
  | nil => rfl
  | cons s steps ih =>
    have hinits := inits_initStep t s
    have hsame : (t.initStep s).2.node? place = t.node? place :=
      hinits.node?_eq hnode (hforce s List.mem_cons_self)
    have hstep := hinits.writesFiles hr
    rw [initAll_cons, ih (hr.of_writesFiles hstep) (hsame ▸ hnode), hsame]
    -- paths lead where they led, so what is asked of the steps may be asked of the first tree
    intro s' hs' hleads
    exact hforce s' (List.mem_cons_of_mem s hs') (hstep.leadsTo_iff.mp hleads)

/-- What exists and is written by no step with force is found at the end as at the start. -/
theorem kept_initAll {steps : List InitStep} (hr : t.Rooted) (hleads : t.LeadsTo p place)
    (hnode : t.node? place ≠ none)
    (hforce : ∀ s ∈ steps, t.LeadsTo s.file place → s.force = false) :
    (t.initAll steps).LeadsTo p place ∧ (t.initAll steps).node? place = t.node? place ∧
      (t.initAll steps).read p = t.read p := by
  have hafter : (t.initAll steps).LeadsTo p place :=
    (writesFiles_initAll hr).leadsTo_iff.mpr hleads
  have hsame := node?_initAll hr hnode hforce
  refine ⟨hafter, hsame, ?_⟩
  rw [read, read, hafter.locate, hleads.locate, hsame]

/-- After a file was made in a directory, another step there finds a file. -/
theorem answer_after_created {between : List InitStep} {s' : InitStep} (hr : t.Rooted)
    (hsame : s'.directory = s.directory) (hcreated : (t.initStep s).1 = .ok .created) :
    ((t.initAll (s :: between)).initStep s').1 =
      .ok (if s'.force then .overwritten else .skipped) := by
  have hinits := inits_initStep t s
  have hwrites : (t.initStep s).2.WritesFiles (t.initAll (s :: between)) :=
    writesFiles_initAll (hr.of_writesFiles (hinits.writesFiles hr))
  obtain ⟨place, hwritten⟩ := (hinits.sound hr).written (.inl hcreated)
  -- the steps between may write the file anew, but they cannot take it away
  obtain ⟨l, hfile⟩ := hwrites.exists_file hwritten.node
  have hleads : (t.initAll (s :: between)).LeadsTo s'.file place := by
    rw [InitStep.file, hsame, ← InitStep.file]
    exact hwrites.leadsTo_iff.mpr hwritten.leadsAfter
  exact (inits_initStep _ s').answer_of_some hleads hfile (by simp)

/-- **Without force no configuration is lost.**  In a run over any directories, a step that skips or
fails leaves the tree as it is; one that makes or overwrites a configuration writes the template
where its path leads, and nothing else; it makes one only if there was nothing, and overwrites one
only if there was a file and force is set.  So what exists is found as it was after every run whose
steps with force lead elsewhere, and a directory that got its configuration never gets it again as a
new one. -/
theorem initAll_sound (ht : t.WellFormed) (hhere : t.node? t.here = some .directory) :
    (∀ (earlier : List InitStep) (s : InitStep),
      (t.initAll earlier).SoundInit s ((t.initAll earlier).initStep s).1
        ((t.initAll earlier).initStep s).2) ∧
    (∀ (steps : List InitStep) (p : Path) (place : Place), t.LeadsTo p place →
      t.node? place ≠ none → (∀ s ∈ steps, t.LeadsTo s.file place → s.force = false) →
        (t.initAll steps).LeadsTo p place ∧ (t.initAll steps).node? place = t.node? place ∧
          (t.initAll steps).read p = t.read p) ∧
    ∀ (earlier between : List InitStep) (s s' : InitStep), s'.directory = s.directory →
      ((t.initAll earlier).initStep s).1 = .ok .created →
        ((t.initAll (earlier ++ s :: between)).initStep s').1 =
          .ok (if s'.force then .overwritten else .skipped) := by
  have hr := rooted_of_wellFormed ht hhere
  refine ⟨fun earlier s => (inits_initStep _ s).sound hr.initAll,
    fun steps p place => kept_initAll hr, fun earlier between s s' hsame hcreated => ?_⟩
  rw [initAll_append]
  exact answer_after_created hr.initAll hsame hcreated

/-- The configurations of three directories: a file, a link to it, and a link that leads to
nothing yet. -/
def linkedConfigs : FileTree :=
  { nodes := [([Text.Utf8.encode "a"], .directory), ([Text.Utf8.encode "b"], .directory),
      ([Text.Utf8.encode "c"], .directory),
      ([Text.Utf8.encode "a", Text.Utf8.encode configFileName], .file (Text.Utf8.encode "old")),
      ([Text.Utf8.encode "b", Text.Utf8.encode configFileName],
        .link (.ofText "../a/playlint.toml")),
      ([Text.Utf8.encode "c", Text.Utf8.encode configFileName], .link (.ofText "../d.toml"))]
    here := [] }

theorem wellFormed_linkedConfigs : linkedConfigs.WellFormed :=
  ⟨fun e he => ⟨by revert e; decide, by revert e; decide⟩, by decide, by decide⟩

theorem initAll_sound_linkedConfigs :
    linkedConfigs.WellFormed ∧ linkedConfigs.node? linkedConfigs.here = some .directory ∧
      (linkedConfigs.initStep ⟨.ofText "c", false⟩).1 = .ok .created ∧
      (∃ place, linkedConfigs.WritesConfig (.ofText "c/playlint.toml") place
        (linkedConfigs.initStep ⟨.ofText "c", false⟩).2) ∧
      (linkedConfigs.initAll [⟨.ofText "c", true⟩, ⟨.ofText "b", false⟩,
        ⟨.ofText "missing", true⟩]).read (.ofText "b/playlint.toml") =
          .ok (Text.Utf8.encode "old") ∧
      ((linkedConfigs.initAll [⟨.ofText "c", false⟩, ⟨.ofText "a", false⟩]).initStep
        ⟨.ofText "c", true⟩).1 = .ok .overwritten := by
  obtain ⟨hsound, hkept, hagain⟩ := initAll_sound wellFormed_linkedConfigs rfl
  have hcreated : (linkedConfigs.initStep ⟨.ofText "c", false⟩).1 = .ok .created :=
    (hsound [] ⟨.ofText "c", false⟩).created_iff.mpr
      ⟨[Text.Utf8.encode "d.toml"], by decide, by decide⟩
  have hread := hkept [⟨.ofText "c", true⟩, ⟨.ofText "b", false⟩, ⟨.ofText "missing", true⟩]
    (.ofText "b/playlint.toml") [Text.Utf8.encode "a", Text.Utf8.encode configFileName]
    (by decide) (by decide) (by decide)
  exact ⟨wellFormed_linkedConfigs, rfl, hcreated,
    (hsound [] ⟨.ofText "c", false⟩).written (.inl hcreated), hread.2.2.trans rfl,
    hagain [] [⟨.ofText "a", false⟩] ⟨.ofText "c", false⟩ ⟨.ofText "c", true⟩ rfl hcreated⟩

end FileTree

end PlaybookPolicy
