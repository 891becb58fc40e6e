import PlaybookPolicy.Proofs.DeclaredNames
import PlaybookPolicy.Proofs.PlayReading

/-!
# The lines of plays

A pass over the plays of a playbook looks for the name of each play below all lines found before:
those of the plays above and those of the tasks in all their sections.  The sections of a play are
walked one by one from the line of the play, or from where the pass has come to if the play has no
line of its own.  So whatever is found for a play or its tasks stands further down than all that was
found before, however often names repeat and whichever lookups fail.  A play that is not found is
shown at the first line.

## Main definitions

* `PlacedPlay` — a play as the pass meets it, with the tasks of its sections.
* `PlacedPlay.IsPlaced` — what the pass makes of a play.
* `PlacedPlay.Precedes` — what is found for one play stands above the place where the pass meets
  another.

## Main results

* `between_of_mem_collectSections` — the tasks of a play stand between it and the place where the
  pass goes on.
* `exists_placed_of_pass` — the invariant of the pass.
* `PlaybookFile.playLines_of_parse` — **plays are found in document order, and above their tasks.**
-/

namespace PlaybookPolicy

open Yaml (Value Mapping)

theorem Resolves.lt {content : String} {after l : Nat} {name? : Option String}
    (h : Resolves content after name? (some l)) : after < l := by
  cases h with
  | found hafter _ _ => exact hafter

/-! ### The tasks of a play -/

/-- The tasks that the sections of a play write. -/
def sectionTasks (m : Mapping) : List Task :=
  playSections.flatMap fun key => leafTasks (sectionItems m key)

theorem unplaced_collectSections_eq (names : NameLines) (start cursor : Nat) (m : Mapping) :
    (collectSections names start m cursor playSections).1.map Task.unplaced = sectionTasks m := by
  rw [unplaced_collectSections, ← flatMap_sectionItems, List.filterMap_flatMap]
  rfl

/-- The tasks of a play stand between it and the place where the pass goes on. -/
theorem between_of_mem_collectSections {names : NameLines} {start cursor : Nat} {m : Mapping}
    {keys : List String} {t : Task} (ht : t ∈ (collectSections names start m cursor keys).1)
    {k : Nat} (hk : t.line = some k) :
    start < k ∧ k ≤ (collectSections names start m cursor keys).2 := by
  have hplaced : (placedSections names start m 0 keys).map Prod.snd =
      (collectSections names start m cursor keys).1 := snd_placedSections keys cursor
  rw [← hplaced] at ht
  obtain ⟨a, ha, rfl⟩ := List.mem_map.mp ht
  exact between_of_mem_placedSections cursor ha hk

/-! ### Plays that are placed -/

/-- A play of a playbook, as the pass over its plays meets it. -/
structure PlacedPlay where
  /-- The mapping that writes the play. -/
  source : Mapping
  /-- The last line that was found before. -/
  after : Nat
  /-- The play. -/
  play : Play
  /-- The line that is found for the play. -/
  line : Option Nat
  /-- The tasks of its sections. -/
  tasks : List Task

namespace PlacedPlay

/-- The lines that are found for the play and its tasks. -/
def lines (p : PlacedPlay) : List Nat :=
  p.line.toList ++ p.tasks.filterMap (·.line)

/-- What the pass makes of a play. -/
structure IsPlaced (content : String) (path : Path) (p : PlacedPlay) : Prop where
  /-- It is the play that its mapping writes. -/
  reads : Play.ReadFrom path p.source p.play
  /-- Its line is the first one below all found before that declares its name. -/
  resolves : Resolves content p.after p.play.name p.line
  /-- It is shown there, or at the first line if there is none. -/
  shown : p.play.line = some (p.line.getD 1)
  /-- Its tasks are those that its sections write. -/
  tasks_eq : p.tasks.map Task.unplaced = sectionTasks p.source
  /-- They stand below the play, or below all found before if it has no line. -/
  below : ∀ t ∈ p.tasks, ∀ k, t.line = some k → p.line.getD p.after < k

/-- All lines found for the one play are above those where the other one is looked for. -/
def Precedes (p q : PlacedPlay) : Prop :=
  ∀ k ∈ p.lines, k ≤ q.after

variable {content : String} {path : Path} {p q : PlacedPlay}

theorem IsPlaced.after_lt (h : p.IsPlaced content path) {l : Nat} (hl : p.line = some l) :
    p.after < l :=
  (hl ▸ h.resolves : Resolves content p.after p.play.name (some l)).lt

theorem IsPlaced.one_le (h : p.IsPlaced content path) : ∃ l, p.play.line = some l ∧ 1 ≤ l := by
  refine ⟨_, h.shown, ?_⟩
  cases hl : p.line with
  | none => exact Nat.le_refl 1
  | some l =>
    have hlt := h.after_lt hl
    rw [Option.getD_some]
    omega

/-- A play behind another one is shown at the first line or further down than the other. -/
theorem Precedes.line_lt (h : p.Precedes q) (hp : p.IsPlaced content path)
    (hq : q.IsPlaced content path) :
    q.play.line = some 1 ∨
      ∃ k l, p.play.line = some k ∧ q.play.line = some l ∧ k < l := by
  rw [hp.shown, hq.shown]
  cases hl : q.line with
  | none => exact .inl rfl
  | some l =>
    have hlt := hq.after_lt hl
    cases hk : p.line with
    | none =>
      -- the play before is shown at the first line, which may be the line of this one
      by_cases hone : l = 1
      · exact .inl (congrArg some hone)
      · refine .inr ⟨1, l, rfl, rfl, ?_⟩
        omega
    | some k =>
      have hle := h k (by simp [lines, hk])
      refine .inr ⟨k, l, rfl, rfl, ?_⟩
      omega

end PlacedPlay

/-! ### The pass over plays -/

/-- **The invariant of the pass.**  From line `cursor` on it places each play, in their order and
with all their tasks, and what it finds for a play is below that line and above all that it finds
for the plays behind. -/
theorem exists_placed_of_pass {content : String} {path : Path} :
    ∀ {l : List Mapping} {cursor : Nat} {plays : List Play} {tasks : List Task},
      collectPlays (NameLines.of content) path cursor l = .ok (plays, tasks) →
        ∃ placed : List PlacedPlay, placed.map (·.source) = l ∧ placed.map (·.play) = plays ∧
          placed.flatMap (·.tasks) = tasks ∧ (∀ p ∈ placed, p.IsPlaced content path) ∧
          (∀ p ∈ placed, cursor ≤ p.after) ∧ placed.Pairwise PlacedPlay.Precedes := by
  intro l
  induction l with
  | nil =>
    intro cursor plays tasks h
    cases h
    exact ⟨[], rfl, rfl, rfl, by simp, by simp, .nil⟩
  | cons m l ih =>
    intro cursor plays tasks h
    obtain ⟨play, hp, line, hline, found, hfound, rest, more, hrest, rfl, rfl⟩ :=
      collectPlays_cons_eq_ok_iff.mp h
    obtain ⟨placed, rfl, rfl, rfl, hplaced, hafter, hpairwise⟩ := ih hrest
    have hresolves : Resolves content cursor play.name line :=
      hline ▸ NameLines.resolves_locateName? content play.name cursor
    have hstart : cursor ≤ line.getD cursor :=
      hline ▸ NameLines.le_getD_locateName? (NameLines.of content) play.name cursor
    have hend : line.getD cursor ≤ found.2 :=
      hfound ▸ (le_snd_collectSections (NameLines.of content) (line.getD cursor) m playSections
        (line.getD cursor)).1
    have hbetween : ∀ t ∈ found.1, ∀ k, t.line = some k → line.getD cursor < k ∧ k ≤ found.2 := by
      intro t ht k hk
      rw [hfound] at ht ⊢
      exact between_of_mem_collectSections ht hk
    have htasks : found.1.map Task.unplaced = sectionTasks m := by
      rw [hfound]
      exact unplaced_collectSections_eq _ _ _ m
    let first : PlacedPlay :=
      { source := m, after := cursor, play := { play with line := some (line.getD 1) }, line,
        tasks := found.1 }
    have hfirst : first.IsPlaced content path :=
      { reads := Play.readFrom_of_ofMapping hp _
        resolves := hresolves
        shown := rfl
        tasks_eq := htasks
        below := fun t ht k hk => (hbetween t ht k hk).1 }
    -- all that is found for the first play is above the line where the pass goes on
    have hlines : ∀ k ∈ first.lines, k ≤ found.2 := by
      intro k hk
      rcases List.mem_append.mp hk with hk | hk
      · have hk : line = some k := Option.mem_toList.mp hk
        rw [hk, Option.getD_some] at hend
        exact hend
      · obtain ⟨t, ht, htk⟩ := List.mem_filterMap.mp hk
        exact (hbetween t ht k htk).2
    refine ⟨first :: placed, rfl, rfl, rfl, ?_, ?_, ?_⟩
    · exact List.forall_mem_cons.mpr ⟨hfirst, hplaced⟩
    · refine List.forall_mem_cons.mpr ⟨Nat.le_refl cursor, fun p hmem => ?_⟩
      have hle := hafter p hmem
      omega
    · refine List.pairwise_cons.mpr ⟨fun q hq k hk => ?_, hpairwise⟩
      exact Nat.le_trans (hlines k hk) (hafter q hq)

/-! ### Files -/

namespace PlaybookFile

/-- **Plays are found in document order, and above their tasks.**  Each play of a playbook that
loads has a line, and a play behind another one has a greater line than that one, or is at the first
line.  This is so since the plays are placed one after the other: the name of each is looked for
below the lines of the plays before it and of their tasks, and the tasks that the sections of a play
write have lines below that of the play, if they and the play have lines at all. -/
theorem playLines_of_parse {path : Path} {content : String} {f : PlaybookFile}
    (h : parse path content = .ok f) (hkind : f.kind = .playbook) :
    (∀ play ∈ f.plays, ∃ l, play.line = some l ∧ 1 ≤ l) ∧
    (f.plays.Pairwise fun play play' => play'.line = some 1 ∨
      ∃ k l, play.line = some k ∧ play'.line = some l ∧ k < l) ∧
    ∃ (document : Value) (placed : List PlacedPlay),
      readDocument path content = .ok document ∧
      placed.map (·.source) = documentPlays document ∧
      placed.map (·.play) = f.plays ∧ placed.flatMap (·.tasks) = f.tasks ∧
      (∀ p ∈ placed, p.IsPlaced content path) ∧
      placed.Pairwise PlacedPlay.Precedes ∧
      ∀ p ∈ placed, ∀ l, p.line = some l → ∀ t ∈ p.tasks, ∀ k, t.line = some k → l < k := by
  obtain ⟨document, hread, hdoc⟩ := parse_eq_ok_iff.mp h
  obtain ⟨-, -, ⟨-, items, rfl, hplays⟩ | ⟨hk | hk, -⟩ | ⟨hk, -⟩⟩ := cases_of_ofDocument hdoc
  · obtain ⟨placed, hsources, hplayed, htasks, hplaced, -, hpairwise⟩ :=
      exists_placed_of_pass hplays
    refine ⟨?_, ?_, .sequence items, placed, hread, hsources, hplayed, htasks, hplaced,
      hpairwise, ?_⟩
    · rw [← hplayed, List.forall_mem_map]
      exact fun p hp => (hplaced p hp).one_le
    · rw [← hplayed, List.pairwise_map]
      refine hpairwise.imp_of_mem ?_
      intro p q hp hq hprecedes
      exact hprecedes.line_lt (hplaced p hp) (hplaced q hq)
    · intro p hp l hl t ht k hk
      have hbelow := (hplaced p hp).below t ht k hk
      rwa [hl, Option.getD_some] at hbelow
  · rw [hkind] at hk
    cases hk
  · rw [hkind] at hk
    cases hk
  · rw [hkind] at hk
    cases hk

/-- A playbook in which an import, a play and two tasks have one name, and the last play has its
name on the line below the key. -/
def repeatedPlays : String :=
  "- name: A\n" ++
  "  import_playbook: x.yml\n" ++
  "- hosts: all\n" ++
  "  tasks:\n" ++
  "  - name: A\n" ++
  "    ping:\n" ++
  "- name: A\n" ++
  "  hosts: all\n" ++
  "  handlers:\n" ++
  "  - name: A\n" ++
  "    ping:\n" ++
  "- name: >-\n" ++
  "    B\n" ++
  "  hosts: all\n"

theorem playLines_of_parse_repeatedPlays :
    ∃ f, parse (Path.ofText "site.yml") repeatedPlays = .ok f ∧ f.kind = .playbook ∧
      f.plays.map (·.line) = [some 1, some 5, some 1] ∧ f.tasks.map (·.line) = [some 1, some 7] ∧
      f.plays.Pairwise fun play play' => play'.line = some 1 ∨
        ∃ k l, play.line = some k ∧ play'.line = some l ∧ k < l := by
  have hlines : ((parse (Path.ofText "site.yml") repeatedPlays).toOption.map fun f =>
      (f.kind, f.plays.map (·.line), f.tasks.map (·.line)))
        = some (.playbook, [some 1, some 5, some 1], [some 1, some 7]) := by
    decide +kernel
  cases hf : parse (Path.ofText "site.yml") repeatedPlays with
  | error e => rw [hf] at hlines; cases hlines
  | ok f =>
    rw [hf] at hlines
    obtain ⟨hkind, hlines⟩ := Prod.mk.inj (Option.some.inj hlines)
    obtain ⟨hplays, htasks⟩ := Prod.mk.inj hlines
    exact ⟨f, rfl, hkind, hplays, htasks, (playLines_of_parse hf hkind).2.1⟩

end PlaybookFile

end PlaybookPolicy
