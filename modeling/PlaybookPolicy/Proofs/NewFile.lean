import PlaybookPolicy.Proofs.ExitCode
import PlaybookPolicy.Proofs.RootSpelling
import PlaybookPolicy.Proofs.SelectedFiles

/-!
# A new file in a tree

A file is made where nothing stood.  A path that does not lead to its place leads where it led
before; one that went on behind its place now needs a directory there.  So the rules of ignore files
stay what they were, unless the new file takes the part of one of them: a walk reads these through
links, and a link that led nowhere may lead to the new file.  Apart from that, a walk finds what it
found before, and perhaps the new file.

## Main definitions

* `FileTree.Gains` — how what a path leads to changes when a file is made.
* `FileTree.NoRuleFileAt` — no ignore file and no mark of a repository leads to a place.

## Main results

* `FileTree.gains_locate` — **what a path leads to, before and after a file is made.**
* `FileTree.noRuleFileAt_of_no_links` — without links only a name makes an ignore file.
* `FileTree.isVisited_insert`, `FileTree.faultsAbove_insert` — the rules stay what they were.
* `FileTree.walk_insert` — a walk finds the new file at most in addition.
* `FileTree.discover_insert`, `FileTree.lint_insert` — **the same files are linted, with the same
  outcome**, if the patterns do not take the new one.
-/

namespace PlaybookPolicy

namespace Path

/-- A path with a name at its end ends in the stretch of that name, but for void ones. -/
theorem exists_of_fileName? {p : Path} {n : EntryName}
    (h : p.fileName? = some n) :
    ∃ init, (segments p.octets).filterMap partOfSegment = init ++ [.name n] := by
  rw [fileName?, parts_eq_append] at h
  rcases List.eq_nil_or_concat ((segments p.octets).filterMap partOfSegment) with
    hnil | ⟨init, part, hconcat⟩
  · rw [hnil, List.append_nil] at h
    split at h
    · next hlast =>
      split at hlast
      · cases hlast
      · split at hlast <;> cases hlast
    · cases h
  · rw [List.concat_eq_append] at hconcat
    rw [hconcat, ← List.append_assoc, List.getLast?_concat] at h
    cases part <;> cases h
    exact ⟨init, hconcat⟩

end Path

namespace FileTree

variable {t : FileTree} {place : Place} {content : List UInt8} {node : Node} {p root : Path}
  {directory names : Place}

/-! ### The nodes of the tree -/

theorem insertNode_of_lookup_eq_none : ∀ {l : List (Place × Node)}, l.lookup place = none →
    insertNode place node l = l ++ [(place, node)] := by
  intro l
  induction l with
  | nil => exact fun _ => rfl
  | cons e l ih =>
    intro h
    rw [List.lookup_cons] at h
    split at h
    · cases h
    · next hne =>
      rw [insertNode, if_neg (by simpa using Ne.symm (by simpa using hne)), ih h, List.cons_append]

theorem lookup_insertNode {q : Place} : ∀ {l : List (Place × Node)},
    (insertNode place node l).lookup q = if q = place then some node else l.lookup q := by
  intro l
  induction l with
  | nil =>
    rw [insertNode, List.lookup_cons, List.lookup_nil]
    split <;> simp_all
  | cons e l ih =>
    obtain ⟨place', node'⟩ := e
    rw [insertNode]
    by_cases hplace : place' = place
    · subst hplace
      rw [if_pos rfl, List.lookup_cons, List.lookup_cons]
      split <;> simp_all
    · rw [if_neg hplace]
      by_cases hq : q = place'
      · subst hq
        rw [List.lookup_cons_self, List.lookup_cons_self, if_neg hplace]
      · rw [List.lookup_cons, List.lookup_cons, beq_eq_false_iff_ne.mpr hq, ih]

theorem ne_nil_of_node? (h : t.node? place ≠ some .directory) : place ≠ [] := by
  rintro rfl
  exact h rfl

theorem node?_insert_self (h : place ≠ []) : (t.insert place node).node? place = some node := by
  rw [node?, if_neg (by simpa using h), insert, lookup_insertNode, if_pos rfl]

theorem node?_insert_of_ne {q : Place} (hq : q ≠ place) :
    (t.insert place node).node? q = t.node? q := by
  rw [node?, node?, insert, lookup_insertNode, if_neg hq]

theorem nodes_insert (h : t.node? place = none) :
    (t.insert place node).nodes = t.nodes ++ [(place, node)] := by
  have hne : place ≠ [] := ne_nil_of_node? (t := t) (by simp [h])
  rw [node?, if_neg (by simpa using hne)] at h
  exact insertNode_of_lookup_eq_none h

theorem filesBelow_insert (h : t.node? place = none) :
    (t.insert place (.file content)).filesBelow directory =
      t.filesBelow directory ++
        if directory.isPrefixOf place then [place.drop directory.length] else [] := by
  rw [filesBelow, nodes_insert h, List.filterMap_append, filesBelow]
  congr 1
  rw [List.filterMap_cons, List.filterMap_nil]
  split <;> split_ifs at * <;> simp_all

/-! ### What paths lead to -/

/-- What a path leads to before and after a file is made: the same; or nothing at its place, and
then the file; or nothing, because the path goes on behind its place. -/
inductive Gains (place : Place) (content : List UInt8) :
    Except FileError Located → Except FileError Located → Prop
  | same (r : Except FileError Located) : Gains place content r r
  | made : Gains place content (.ok ⟨place, none⟩) (.ok ⟨place, some (.file content)⟩)
  | behind : Gains place content (.error .notFound) (.error .notDirectory)

theorem Gains.ite {c : Prop} [Decidable c] {a b a' b' : Except FileError Located}
    (ha : Gains place content a a') (hb : Gains place content b b') :
    Gains place content (if c then a else b) (if c then a' else b') := by
  split
  · exact ha
  · exact hb

theorem gains_followSegments {follow : Bool}
    {enter enter' : Place → List (List UInt8) → Except FileError Located}
    (h : t.node? place = none)
    (henter : ∀ q segs, Gains place content (enter q segs) (enter' q segs)) :
    ∀ {segs : List (List UInt8)} {q : Place},
      Gains place content (t.followSegments follow enter q segs)
        ((t.insert place (.file content)).followSegments follow enter' q segs) := by
  have hne : place ≠ [] := ne_nil_of_node? (t := t) (by simp [h])
  have hself : (t.insert place (.file content)).node? place = some (.file content) :=
    node?_insert_self hne
  intro segs
  induction segs with
  | nil =>
    intro q
    by_cases hq : q = place
    · subst hq
      rw [followSegments, followSegments, h, hself]
      exact .made
    · rw [followSegments, followSegments, node?_insert_of_ne hq]
      exact .same _
  | cons s rest ih =>
    intro q
    by_cases hq : q = place
    · subst hq
      rw [followSegments, followSegments, h, hself, if_pos (by simp),
        if_pos (by simp)]
      exact .same _
    · rw [followSegments, followSegments, node?_insert_of_ne hq]
      refine .ite (.same _) (.ite ih (.ite ih (.ite (.same _) ?_)))
      by_cases hchild : q ++ [s] = place
      · -- the path comes by the new file, and either ends there or needs a directory
        simp only [hchild, h, hself]
        cases rest with
        | nil =>
          simp only [followSegments, hself]
          exact .made
        | cons r rest =>
          have hafter : (t.insert place (.file content)).followSegments follow enter' place
              (r :: rest) = .error .notDirectory := by
            rw [followSegments, hself, if_pos (by simp)]
          rw [hafter, if_neg (by simp)]
          exact .behind
      · simp only [node?_insert_of_ne hchild]
        split
        · exact .same _
        · exact .ite (.same _) (henter _ _)
        · exact ih

theorem gains_followLinks {follow : Bool} (h : t.node? place = none) :
    ∀ {n : Nat} {q : Place} {segs : List (List UInt8)},
      Gains place content (t.followLinks follow n q segs)
        ((t.insert place (.file content)).followLinks follow n q segs) := by
  intro n
  induction n with
  | zero =>
    intro q segs
    exact gains_followSegments h fun q segs => .same _
  | succ n ih =>
    intro q segs
    exact gains_followSegments h fun q segs => ih

/-- **What a path leads to, before and after a file is made.** -/
theorem gains_locate {follow : Bool} (h : t.node? place = none) :
    Gains place content (t.locate follow p) ((t.insert place (.file content)).locate follow p) := by
  rw [locate, locate]
  exact .ite (.same _) (.ite (.same _) (.ite (.same _) (gains_followLinks h)))

theorem locate_insert_cases (content : List UInt8) (h : t.node? place = none) :
    (t.insert place (.file content)).locate true p = t.locate true p ∨
      t.locate true p = .ok ⟨place, none⟩ ∨
        t.locate true p = .error .notFound ∧
          (t.insert place (.file content)).locate true p = .error .notDirectory := by
  have hgains : Gains place content (t.locate true p)
      ((t.insert place (.file content)).locate true p) := gains_locate h
  generalize t.locate true p = r at hgains
  generalize (t.insert place (.file content)).locate true p = r' at hgains
  cases hgains with
  | same => exact .inl rfl
  | made => exact .inr (.inl rfl)
  | behind => exact .inr (.inr ⟨rfl, rfl⟩)

/-- A path that does not lead to the new file leads where it led before, or nowhere as before. -/
theorem locate_insert (content : List UInt8) (h : t.node? place = none) (hp : ¬t.LeadsTo p place) :
    (t.insert place (.file content)).locate true p = t.locate true p ∨
      t.locate true p = .error .notFound ∧
        (t.insert place (.file content)).locate true p = .error .notDirectory := by
  rcases locate_insert_cases content h with heq | hmade | hbehind
  · exact .inl heq
  · exact absurd ⟨none, hmade⟩ hp
  · exact .inr hbehind

theorem look_insert (h : t.node? place = none) (hp : ¬t.LeadsTo p place) :
    (t.insert place (.file content)).look p = t.look p := by
  rw [look, look]
  rcases locate_insert content h hp with heq | ⟨hbefore, hafter⟩
  · rw [heq]
  · rw [hbefore, hafter]

theorem read_insert (content : List UInt8) (h : t.node? place = none) (hp : ¬t.LeadsTo p place) :
    (∃ l, t.read p = .ok l ∧ (t.insert place (.file content)).read p = .ok l) ∨
      ∃ e e', t.read p = .error e ∧ (t.insert place (.file content)).read p = .error e' := by
  rcases locate_insert content h hp with heq | ⟨hbefore, hafter⟩
  · have hread : (t.insert place (.file content)).read p = t.read p := by rw [read, read, heq]
    rw [hread]
    cases t.read p with
    | ok l => exact .inl ⟨l, rfl, rfl⟩
    | error e => exact .inr ⟨e, e, rfl, rfl⟩
  · rw [read, read, hbefore, hafter]
    exact .inr ⟨_, _, rfl, rfl⟩

/-! ### Rules -/

/-- The names of ignore files, and of what leads a walk to them. -/
def ruleFileNames : List EntryName :=
  [".ignore", ".gitignore", ".git", "commondir", "exclude"].map Text.Utf8.encode

/-- No ignore file, and nothing that leads a walk to one, leads to the place. -/
def NoRuleFileAt (t : FileTree) (place : Place) : Prop :=
  ∀ p, ∀ name ∈ ruleFileNames, p.fileName? = some name → ¬t.LeadsTo p place

theorem NoRuleFileAt.join (hrules : t.NoRuleFileAt place) (names : Place) (name : EntryName)
    (hnames : IsDescent (names ++ [name])) (hname : name ∈ ruleFileNames) :
    ¬t.LeadsTo (root.join (.ofNames (names ++ [name]))) place := by
  have hlast : (Path.ofNames (names ++ [name])).fileName? = some name := by
    rw [Path.fileName?, Path.parts_ofNames hnames, List.map_append, List.map_singleton,
      List.getLast?_concat]
  refine hrules _ name hname ?_
  by_cases hroot : root.octets = []
  · rwa [Path.join, if_pos (by simp [hroot])]
  · rwa [Path.fileName?_join hroot hnames]

theorem NoRuleFileAt.entryPath (hrules : t.NoRuleFileAt place) {name : String}
    (hentry : IsEntryName (Text.Utf8.encode name)) (hname : Text.Utf8.encode name ∈ ruleFileNames) :
    ¬t.LeadsTo (entryPath name directory) place := by
  have hofText : Path.ofText name = .ofNames ([] ++ [Text.Utf8.encode name]) :=
    congrArg Path.mk (List.append_nil _).symm
  rw [FileTree.entryPath, hofText]
  exact hrules.join [] _ ⟨by simp, by simpa using hentry⟩ hname

theorem NoRuleFileAt.ignoreFile (hrules : t.NoRuleFileAt place) :
    ¬t.LeadsTo (FileTree.entryPath ".ignore" directory) place :=
  hrules.entryPath (by decide) (by decide)

theorem NoRuleFileAt.gitignoreFile (hrules : t.NoRuleFileAt place) :
    ¬t.LeadsTo (FileTree.entryPath ".gitignore" directory) place :=
  hrules.entryPath (by decide) (by decide)

theorem NoRuleFileAt.mark (hrules : t.NoRuleFileAt place) :
    ¬t.LeadsTo (FileTree.entryPath ".git" directory) place :=
  hrules.entryPath (by decide) (by decide)

theorem NoRuleFileAt.commonDirectory (hrules : t.NoRuleFileAt place) :
    ¬t.LeadsTo (root.join (.ofText "commondir")) place :=
  hrules.join [] (Text.Utf8.encode "commondir")
    ⟨by decide, by decide⟩ (by decide)

theorem NoRuleFileAt.excludeFile (hrules : t.NoRuleFileAt place)
    (hp : t.excludeFile? directory = some p) : ¬t.LeadsTo p place := by
  rw [excludeFile?, Option.map_eq_some_iff] at hp
  obtain ⟨data, -, rfl⟩ := hp
  exact hrules.join [Text.Utf8.encode "info"] (Text.Utf8.encode "exclude")
    ⟨by decide, by decide⟩ (by decide)

/-! ### Trees without links -/

/-- The place that a part of a path leads to. -/
def enterPart (q : Place) : PathPart → Place
  | .up => q.dropLast
  | .name n => q ++ [n]
  | _ => q

/-- Where there are no links, a path leads to the place that its parts say. -/
theorem place_of_followSegments
    {enter : Place → List (List UInt8) → Except FileError Located}
    (hlinks : ∀ q target, t.node? q ≠ some (.link target)) :
    ∀ {segs : List (List UInt8)} {q : Place} {found : Located},
      t.followSegments true enter q segs = .ok found →
        found.place = (segs.filterMap Path.partOfSegment).foldl enterPart q := by
  intro segs
  induction segs with
  | nil =>
    intro q found h
    cases h
    rfl
  | cons s rest ih =>
    intro q found h
    rw [followSegments] at h
    by_cases hvoid : Path.isVoidSegment s = true
    · rw [if_pos hvoid] at h
      rw [List.filterMap_cons_none (Path.partOfSegment_eq_none_iff.mpr hvoid)]
      split at h
      · cases h
      · exact ih h
    · rw [if_neg hvoid] at h
      by_cases hdots : (s == Path.dotDot) = true
      · have hup : Path.partOfSegment s = some .up := by
          rw [beq_iff_eq.mp hdots]
          rfl
        rw [List.filterMap_cons_some hup, List.foldl_cons]
        rw [if_pos hdots] at h
        split at h
        · cases h
        · exact ih h
      · have hname : Path.partOfSegment s = some (.name s) := by
          rw [Path.partOfSegment, if_neg (by simpa [Path.isVoidSegment] using hvoid), if_neg hdots]
        rw [List.filterMap_cons_some hname, List.foldl_cons]
        simp only [if_neg hdots] at h
        split at h
        · cases h
        · split at h
          · cases h
          · split at h
            · split at h
              · next hrest =>
                rw [List.isEmpty_iff.mp hrest]
                cases h
                rfl
              · cases h
            · next hlink => exact absurd hlink (hlinks _ _)
            · exact ih h

/-- Where there are no links, no ignore file leads to a place of another name. -/
theorem noRuleFileAt_of_no_links {name : EntryName}
    (hlinks : ∀ q target, t.node? q ≠ some (.link target))
    (hname : name ∉ ruleFileNames) : t.NoRuleFileAt (place ++ [name]) := by
  rintro p n hn hfile ⟨node?, hlocate⟩
  have hplace := place_of_followSegments hlinks (followLinks_of_locate hlocate)
  obtain ⟨init, hinit⟩ := Path.exists_of_fileName? hfile
  rw [hinit, List.foldl_append, List.foldl_cons, List.foldl_nil] at hplace
  have heq : name = n := (List.append_inj' hplace rfl).2 |> List.singleton_inj.mp
  exact hname (heq ▸ hn)

/-! ### The rules of the tree -/

variable (h : t.node? place = none) (hrules : t.NoRuleFileAt place)

include h

theorem rulesOf_insert (hp : ¬t.LeadsTo p place) :
    (t.insert place (.file content)).rulesOf p = t.rulesOf p := by
  rcases read_insert content h hp with
    ⟨l, hbefore, hafter⟩ | ⟨e, e', hbefore, hafter⟩ <;> rw [rulesOf, rulesOf, hbefore, hafter]

theorem faultsOf_insert (hp : ¬t.LeadsTo p place) :
    (t.insert place (.file content)).faultsOf p = t.faultsOf p := by
  rcases read_insert content h hp with
    ⟨l, hbefore, hafter⟩ | ⟨e, e', hbefore, hafter⟩ <;> rw [faultsOf, faultsOf, hbefore, hafter]

theorem firstLine?_insert (hp : ¬t.LeadsTo p place) :
    (t.insert place (.file content)).firstLine? p = t.firstLine? p := by
  rcases read_insert content h hp with
    ⟨l, hbefore, hafter⟩ | ⟨e, e', hbefore, hafter⟩ <;>
      rw [firstLine?, firstLine?, hbefore, hafter]

include hrules

theorem excludeFile?_insert :
    (t.insert place (.file content)).excludeFile? directory = t.excludeFile? directory := by
  have hcommon : ∀ root : Path, (t.insert place (.file content)).firstLine?
      (root.join (.ofText "commondir")) = t.firstLine? (root.join (.ofText "commondir")) :=
    fun root => firstLine?_insert h hrules.commonDirectory
  simp only [excludeFile?, linkedRepository?, look_insert h hrules.mark,
    firstLine?_insert h hrules.mark, hcommon]

theorem isRepository_insert :
    (t.insert place (.file content)).isRepository = t.isRepository := by
  funext d
  rw [isRepository, isRepository, has, has, look_insert h hrules.mark]

theorem faultsAbove_insert :
    (t.insert place (.file content)).faultsAbove directory = t.faultsAbove directory := by
  rw [faultsAbove, faultsAbove]
  refine List.flatMap_congr fun d _ => ?_
  rw [faultsOf_insert h hrules.ignoreFile, faultsOf_insert h hrules.gitignoreFile,
    excludeFile?_insert h hrules]
  congr 1
  refine List.flatMap_congr fun p hp => faultsOf_insert h ?_
  exact hrules.excludeFile (Option.mem_toList.mp hp)

omit hrules in
theorem verdictIn?_insert {file? : Place → Option Path} {directories : List Place}
    {isDirectory : Bool} (hfile : ∀ d p, file? d = some p → ¬t.LeadsTo p place) {q : Place} :
    (t.insert place (.file content)).verdictIn? file? directories q isDirectory =
      t.verdictIn? file? directories q isDirectory := by
  rw [verdictIn?, verdictIn?]
  congr 1
  funext d
  cases hd : file? d with
  | none => rfl
  | some p => rw [Option.bind_some, Option.bind_some, rulesOf_insert h (hfile d p hd)]

/-- **The rules say of every place what they said before.** -/
theorem isIgnored_insert {isDirectory : Bool} {q : Place} :
    (t.insert place (.file content)).isIgnored q isDirectory = t.isIgnored q isDirectory := by
  have hexclude : (t.insert place (.file content)).excludeFile? = t.excludeFile? :=
    funext fun d => excludeFile?_insert h hrules
  rw [isIgnored, isIgnored, verdict?, verdict?]
  simp only [repositoryPart, isRepository_insert h hrules, hexclude]
  rw [verdictIn?_insert h fun d p hp => ?_, verdictIn?_insert h fun d p hp => ?_,
    verdictIn?_insert h fun d p hp => hrules.excludeFile hp]
  · cases hp
    exact hrules.gitignoreFile
  · cases hp
    exact hrules.ignoreFile

theorem isVisited_insert :
    (t.insert place (.file content)).isVisited directory = t.isVisited directory := by
  funext names
  simp only [isVisited, isIgnored_insert h hrules]

/-! ### Walks -/

theorem visitedBelow_insert :
    (t.insert place (.file content)).visitedBelow directory =
      (t.visitedBelow directory).map fun l => l ++
        (if directory.isPrefixOf place then [place.drop directory.length] else []).filter
          (t.isVisited directory) := by
  rw [visitedBelow, visitedBelow, faultsAbove_insert h hrules, isVisited_insert h hrules,
    filesBelow_insert h, List.filter_append]
  split <;> rfl

omit h hrules in
/-- Unless a root leads to a directory, a walk depends only on what it leads to. -/
theorem walk_congr {t' : FileTree} (heq : t'.locate true root = t.locate true root)
    (hroot : ∀ d, t.locate true root ≠ .ok ⟨d, some .directory⟩) :
    t'.walk root = t.walk root := by
  rw [walk, walk, heq]
  split
  · rfl
  · split
    · rfl
    · next found hfound =>
      split
      · next hdirectory => exact absurd (hdirectory ▸ hfound) (hroot found.place)
      · rfl
      · rfl

omit h hrules in
theorem walk_of_error {cause : FileError} (hinput : root ≠ inputRoot)
    (hlocate : t.locate true root = .error cause) :
    t.walk root = .error (.unwalkable root cause) := by
  simp only [walk, if_neg hinput, hlocate]

/-- **A walk finds what it found before**, and the new file at most in addition. -/
theorem walk_insert (content : List UInt8) (hplace : IsDescent place)
    (hroot : ¬t.LeadsTo root place) :
    (∃ found extra, t.walk root = .ok found ∧
        (t.insert place (.file content)).walk root = .ok (found ++ extra) ∧
        ∀ p ∈ extra, ∃ directory names, directory ++ names = place ∧ IsDescent names ∧
          p = root.join (.ofNames names)) ∨
      ∃ e e', t.walk root = .error e ∧ (t.insert place (.file content)).walk root = .error e' := by
  by_cases hinput : root = inputRoot
  · exact .inl ⟨[], [], if_pos hinput, if_pos hinput, by simp⟩
  rcases locate_insert content h hroot with heq | ⟨hbefore, hafter⟩
  · by_cases hdirectory : ∃ d, t.locate true root = .ok ⟨d, some .directory⟩
    · -- the only place below the directory that is new is that of the file
      obtain ⟨d, hlocate⟩ := hdirectory
      rw [walk_of_directory hinput hlocate, walk_of_directory hinput (heq.trans hlocate),
        visitedBelow_insert h hrules]
      cases t.visitedBelow d with
      | error e => exact .inr ⟨e, e, rfl, rfl⟩
      | ok l =>
        refine .inl ⟨_, _, rfl, congrArg Except.ok List.map_append, fun p hp => ?_⟩
        obtain ⟨names, hnames, rfl⟩ := List.mem_map.mp hp
        have hmem := (List.mem_filter.mp hnames).1
        split at hmem
        · next hprefix =>
          obtain ⟨m, rfl⟩ := List.isPrefixOf_iff_prefix.mp hprefix
          rw [List.drop_left, List.mem_singleton] at hmem
          subst hmem
          refine ⟨d, names, rfl, ⟨?_, fun n hn => ?_⟩, rfl⟩
          · rintro rfl
            rw [List.append_nil, node?_of_locate hlocate] at h
            cases h
          · exact hplace.isEntryName n (List.mem_append_right d hn)
        · cases hmem
    · have hwalk : (t.insert place (.file content)).walk root = t.walk root :=
        walk_congr heq fun d hd => hdirectory ⟨d, hd⟩
      rw [hwalk]
      cases t.walk root with
      | ok found => exact .inl ⟨found, [], rfl, by rw [List.append_nil], by simp⟩
      | error e => exact .inr ⟨e, e, rfl, rfl⟩
  · exact .inr ⟨_, _, walk_of_error hinput hbefore, walk_of_error hinput hafter⟩

/-! ### Selections -/

/-- The patterns do not take the new file, whatever directory above it is the root. -/
def LeavesFile (c : Config) (place : Place) : Prop :=
  ∀ filter, FileFilter.ofPatterns c.includes c.excludes = .ok filter →
    ∀ directory names, directory ++ names = place → IsDescent names →
      filter.takes (.ofNames names) = false

variable {c : Config} (hleaves : LeavesFile c place) (hplace : IsDescent place)

include hleaves hplace

theorem select_insert (content : List UInt8) (hroot : ¬t.LeadsTo root place) :
    ((t.insert place (.file content)).select c.includes c.excludes root).toOption =
      (t.select c.includes c.excludes root).toOption := by
  rw [select, select]
  cases hfilter : FileFilter.ofPatterns c.includes c.excludes with
  | error e => rfl
  | ok filter =>
    rcases walk_insert h hrules content hplace hroot with
      ⟨found, extra, hbefore, hafter, hextra⟩ | ⟨e, e', hbefore, hafter⟩
    · have hleft : (extra.filter fun p => filter.takes (matchPath root p)) = [] := by
        rw [List.filter_eq_nil_iff]
        intro p hp
        obtain ⟨directory, names, happend, hnames, rfl⟩ := hextra p hp
        rw [matchPath_names hnames, hleaves filter hfilter directory names happend hnames]
        exact Bool.false_ne_true
      rw [hbefore, hafter]
      show some _ = some _
      rw [List.filter_append, hleft, List.append_nil]
    · rw [hbefore, hafter]
      rfl

/-- **The same files are listed.** -/
theorem discover_insert {roots : List Path} (hroots : ∀ root ∈ roots, ¬t.LeadsTo root place) :
    ((t.insert place (.file content)).discover c roots).toOption =
      (t.discover c roots).toOption := by
  have hfound := toOption_mapM_congr fun root hroot =>
    select_insert h hrules hleaves hplace content (hroots root hroot)
  rw [discover, discover]
  cases hbefore : roots.mapM (t.select c.includes c.excludes) <;>
    cases hafter : roots.mapM ((t.insert place (.file content)).select c.includes c.excludes) <;>
      rw [hbefore, hafter] at hfound <;> cases hfound <;> rfl

omit hrules hleaves hplace in
theorem locate_insert_of_ne (hnone : t.locate true p ≠ .ok ⟨place, none⟩)
    (hmissing : t.locate true p ≠ .error .notFound) :
    (t.insert place (.file content)).locate true p = t.locate true p := by
  rcases locate_insert_cases content h with heq | hmade | hbehind
  · exact heq
  · exact absurd hmade hnone
  · exact absurd hbehind.1 hmissing

omit hrules hleaves hplace in
/-- What was found loads as before. -/
theorem load_insert (hp : t.Finds root p) :
    (t.insert place (.file content)).load p = t.load p := by
  have hlocate : (t.insert place (.file content)).locate true p = t.locate true p := by
    rcases hp with ⟨rfl, q, l, hfile⟩ | ⟨directory, names, hroot, hnames, rfl⟩
    · rw [locate_insert_of_ne h] <;> rw [hfile] <;> simp
    · obtain ⟨l, hfile⟩ := hnames.file
      have hjoin := locate_join hroot hnames
      rw [hfile] at hjoin
      rw [locate_insert_of_ne h] <;> rw [hjoin] <;> split <;> simp
  rw [load, load, readText, readText, read, read, hlocate]

omit hrules hleaves hplace in
/-- **What was listed is linted with the same outcome.** -/
theorem lint_insert (ht : t.WellFormed) {roots files : List Path} {g : Registry}
    (hfiles : t.discover c roots = .ok files) :
    (t.insert place (.file content)).lint g files = t.lint g files := by
  refine lint_congr fun p hp => ?_
  obtain ⟨root, -, hfinds⟩ := exists_root_of_mem_discover ht hfiles p hp
  exact load_insert h hfinds

end FileTree

end PlaybookPolicy
