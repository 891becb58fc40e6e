import Mathlib.Data.Set.List
import PlaybookPolicy.Proofs.DecodedText
import PlaybookPolicy.Proofs.MovedFile

/-!
# How plays are read

A playbook has a play for each mapping among its items that imports no other playbook.  What such a
mapping lists as its collections must be texts, tagged or not, in a list that bears no tag; a
mapping may also have no collections, or the null value in their place.  One play with something
else there is an error of the whole file, and no other play is an error.

## Main definitions

* `Play.Declares`, `Play.Malformed` — the collections that a mapping declares, and a mapping that
  declares none of these forms.
* `Play.ReadFrom` — the play that a mapping of a file writes.
* `PlaybookFile.documentPlays` — the mappings of a document that are plays.

## Main results

* `Play.collectionsOf_eq_ok_iff`, `Play.collectionsOf_eq_error_iff` — how collections are read.
* `forall₂_of_collectPlays` — a play is read from each mapping, in document order.
* `PlaybookFile.plays_exact` — **plays are read completely, or the file fails.**
-/

namespace PlaybookPolicy

open Yaml (Value Mapping)

/-! ### Collections -/

namespace Play

/-- The collections that a mapping declares, in their order. -/
inductive Declares (m : Mapping) : List String → Prop
  /-- There is no entry. -/
  | absent (h : Mapping.get? m "collections" = none) : Declares m []
  /-- The entry is null. -/
  | null (h : Mapping.get? m "collections" = some .null) : Declares m []
  /-- The entry lists what reads as texts. -/
  | listed {items : List Value} {names : List String}
      (h : Mapping.get? m "collections" = some (.sequence items))
      (hnames : items.map Value.asText? = names.map some) : Declares m names

/-- The mapping has a `collections` entry that is neither null nor a list, without a tag, of items
that read as texts. -/
def Malformed (m : Mapping) : Prop :=
  ∃ v, Mapping.get? m "collections" = some v ∧ v ≠ .null ∧
    ¬∃ items, v = .sequence items ∧ ∀ w ∈ items, ∃ s, w.asText? = some s

/-- The play that a mapping writes in the file with the path, whatever line it gets. -/
structure ReadFrom (path : Path) (m : Mapping) (play : Play) : Prop where
  /-- It is a play of a playbook. -/
  kind : play.kind = .playbook
  /-- It stands in the file. -/
  path : play.path = path
  /-- It has the collections that the mapping declares. -/
  collections : Declares m play.collections
  /-- It has the name of the mapping, if that reads as a text. -/
  name : play.name = (Mapping.get? m "name").bind Value.asText?

variable {m : Mapping}

theorem collectionsOf_eq_ok_iff {names : List String} :
    collectionsOf m = .ok names ↔ Declares m names := by
  constructor
  · intro h
    rw [collectionsOf] at h
    split at h
    · next hv => cases h; exact .absent hv
    · next hv => cases h; exact .null hv
    · next items hv =>
      cases hitems : items.mapM Value.asText? with
      | none => rw [hitems] at h; cases h
      | some r =>
        rw [hitems] at h
        cases h
        exact .listed hv (mapM_eq_some_iff.mp hitems)
    · cases h
  · intro h
    cases h with
    | absent h => rw [collectionsOf, h]
    | null h => rw [collectionsOf, h]
    | listed h hnames =>
      rw [collectionsOf, h]
      dsimp only
      rw [mapM_eq_some_iff.mpr hnames]

/-- A mapping either declares collections or is malformed, and never both. -/
theorem exists_declares_iff : (∃ names, Declares m names) ↔ ¬Malformed m := by
  constructor
  · rintro ⟨names, h⟩ ⟨v, hv, hnull, hlist⟩
    cases h with
    | absent h => rw [hv] at h; cases h
    | null h => rw [hv] at h; cases h; exact hnull rfl
    | @listed items _ h hnames =>
      rw [hv] at h
      cases h
      exact hlist ⟨items, rfl, exists_map_some_iff.mp ⟨names, hnames⟩⟩
  · intro h
    cases hv : Mapping.get? m "collections" with
    | none => exact ⟨[], .absent hv⟩
    | some v =>
      by_cases hnull : v = .null
      · rw [hnull] at hv
        exact ⟨[], .null hv⟩
      · by_cases hlist : ∃ items, v = .sequence items ∧ ∀ w ∈ items, ∃ s, w.asText? = some s
        · obtain ⟨items, rfl, hitems⟩ := hlist
          obtain ⟨names, hnames⟩ := exists_map_some_iff.mpr hitems
          exact ⟨names, .listed hv hnames⟩
        · exact absurd ⟨v, hv, hnull, hlist⟩ h

/-- A mapping writes no play if it is malformed, and only then. -/
theorem exists_ofMapping_iff {kind : FileKind} {path : Path} :
    (∃ play, ofMapping kind path m = .ok play) ↔ ¬Malformed m := by
  rw [← exists_declares_iff, ofMapping]
  constructor
  · rintro ⟨play, h⟩
    cases hc : collectionsOf m with
    | error e => rw [hc] at h; cases h
    | ok names => exact ⟨names, collectionsOf_eq_ok_iff.mp hc⟩
  · rintro ⟨names, h⟩
    rw [collectionsOf_eq_ok_iff.mpr h]
    exact ⟨_, rfl⟩

theorem readFrom_of_ofMapping {path : Path} {play : Play}
    (h : ofMapping .playbook path m = .ok play) (line : Option Nat) :
    ReadFrom path m { play with line } := by
  rw [ofMapping] at h
  cases hc : collectionsOf m with
  | error e => rw [hc] at h; cases h
  | ok names =>
    rw [hc] at h
    cases h
    exact
      { kind := rfl
        path := rfl
        collections := collectionsOf_eq_ok_iff.mp hc
        name := rfl }

end Play

/-! ### Plays -/

/-- **A play is read from each mapping**, in their order. -/
theorem forall₂_of_collectPlays {names : NameLines} {path : Path} :
    ∀ {l : List Mapping} {cursor : Nat} {plays : List Play} {tasks : List Task},
      collectPlays names path cursor l = .ok (plays, tasks) →
        List.Forall₂ (Play.ReadFrom path) l plays := by
  intro l
  induction l with
  | nil =>
    intro cursor plays tasks h
    cases h
    exact .nil
  | cons m l ih =>
    intro cursor plays tasks h
    obtain ⟨play, hp, line, -, found, -, rest, more, hrest, rfl, -⟩ :=
      collectPlays_cons_eq_ok_iff.mp h
    exact .cons (Play.readFrom_of_ofMapping hp _) (ih hrest)

/-! ### Files -/

namespace PlaybookFile

/-- The mappings among the items of a document that import no other playbook. -/
def documentPlays (document : Value) : List Mapping :=
  ((documentItems document).filterMap Value.asMapping?).filter fun m =>
    !(Mapping.hasKey m "import_playbook" || Mapping.hasKey m "ansible.builtin.import_playbook")

theorem error_of_readDocument {path : Path} {content : String} {e : LoadError}
    (h : readDocument path content = .error e) : e = .invalidYaml path := by
  rw [readDocument] at h
  split at h
  · cases h
  · split at h
    · cases h
    · cases h
      rfl

/-- A document fails to load by the collections of a play, if it does. -/
theorem error_of_ofDocument {path : Path} {names : NameLines} {document : Value} {e : LoadError}
    (h : ofDocument path names document = .error e) : e = .invalidCollections := by
  cases document with
  | sequence items =>
    cases hk : FileKind.ofDocument path (.sequence items) with
    | playbook =>
      simp only [ofDocument, hk] at h
      cases hc : collectPlays names path 0 (playMappings items) with
      | error e' =>
        rw [hc] at h
        cases h
        exact error_of_collectPlays hc
      | ok r => rw [hc] at h; cases h
    | _ => simp only [ofDocument, hk] at h; cases h
  | _ => cases h

/-- **Which documents fail to load**: playbooks with a malformed play. -/
theorem ofDocument_eq_error_iff {path : Path} {names : NameLines} {document : Value} :
    ofDocument path names document = .error .invalidCollections ↔
      FileKind.ofDocument path document = .playbook ∧
        ∃ m ∈ documentPlays document, Play.Malformed m := by
  have hloads := exists_ofDocument_iff path names document
  simp only [Play.exists_ofMapping_iff] at hloads
  constructor
  · intro h
    have hnone : ¬∃ f, ofDocument path names document = .ok f := by
      rintro ⟨f, hf⟩
      rw [h] at hf
      cases hf
    rw [hloads] at hnone
    push Not at hnone
    obtain ⟨items, rfl, hkind, m, hm, hbad⟩ := hnone
    exact ⟨hkind, m, hm, hbad⟩
  · rintro ⟨hkind, m, hm, hbad⟩
    cases hf : ofDocument path names document with
    | error e => rw [error_of_ofDocument hf]
    | ok f =>
      obtain ⟨-, hk, hcases⟩ := cases_of_ofDocument hf
      have hgood := hloads.mp ⟨f, hf⟩
      cases document with
      | sequence items => exact absurd hbad (hgood items rfl hkind m hm)
      | _ => cases hkind

/-- **Plays are read completely, or the file fails.**  A file fails by the collections of a play
exactly if it can be read as a playbook with a malformed one.  Any other file that can be read
loads: a playbook has a play for each mapping that imports no other playbook, in document order,
and a file of another kind has none. -/
theorem plays_exact (path : Path) (content : String) :
    (parse path content = .error .invalidCollections ↔
      ∃ document, readDocument path content = .ok document ∧
        FileKind.ofDocument path document = .playbook ∧
        ∃ m ∈ documentPlays document, Play.Malformed m) ∧
    ∀ document, readDocument path content = .ok document →
      parse path content = .error .invalidCollections ∨
        ∃ f, parse path content = .ok f ∧ f.kind = FileKind.ofDocument path document ∧
          (f.kind = .playbook →
            List.Forall₂ (Play.ReadFrom path) (documentPlays document) f.plays) ∧
          (f.kind ≠ .playbook → f.plays = []) := by
  constructor
  · rw [parse]
    cases hread : readDocument path content with
    | error e =>
      rw [error_of_readDocument hread]
      simp
    | ok document => simp [ofDocument_eq_error_iff]
  · intro document hread
    cases hdoc : ofDocument path (NameLines.of content) document with
    | error e =>
      rw [parse, hread, ← error_of_ofDocument hdoc]
      exact .inl hdoc
    | ok f =>
      refine .inr ⟨f, parse_eq_ok_iff.mpr ⟨document, hread, hdoc⟩, ?_⟩
      obtain ⟨-, hkind, hcases⟩ := cases_of_ofDocument hdoc
      obtain ⟨hk, items, rfl, hplays⟩ | ⟨hk, items, rfl, hplays, -⟩ | ⟨hk, hplays, -⟩ := hcases
      · exact ⟨hkind, fun _ => forall₂_of_collectPlays hplays, fun hne => absurd hk hne⟩
      · refine ⟨hkind, ?_, fun _ => hplays⟩
        intro hplaybook
        rcases hk with hk | hk <;> rw [hk] at hplaybook <;> cases hplaybook
      · refine ⟨hkind, ?_, fun _ => hplays⟩
        intro hplaybook
        rw [hk] at hplaybook
        cases hplaybook

end PlaybookFile

end PlaybookPolicy
