import PlaybookPolicy.Proofs.RecordStream

/-!
# The tally of a report

The last record of a report counts the findings and the failures of the run.  The records before it
are written one by one, and one whose path is no text is left out; the last record counts it all the
same.  So the tally is right exactly if every path in the outcome is a text.

## Main definitions

* `Report.saidIn` — what the lines of a report say.
* `Report.Tallies` — the counts agree with the records.
* `Outcome.written` — what is left of an outcome in its report.

## Main results

* `Outcome.saidIn_recordText` — a report says of an outcome all but what stands at other paths.
* `Outcome.tallies_recordText` — **the tally of a report is right exactly if every path is a text.**
* `Outcome.recordText_loses_findings` — a finding can be counted and yet be missing.
-/

namespace PlaybookPolicy

namespace Report

/-! ### Tallies -/

/-- The record is a complaint of a rule. -/
def Record.isFinding : Record → Bool
  | finding _ => true
  | _ => false

/-- The record is a file that could not be loaded. -/
def Record.isFailure : Record → Bool
  | failure _ _ => true
  | _ => false

/-- The record says how the run went. -/
def Record.isStatus : Record → Bool
  | status .. => true
  | _ => false

/-- What the lines of a report say. -/
def saidIn (s : String) : List Record :=
  (s.toList.splitOn '\n').filterMap Record.ofLine?

/-- The counts in a status record agree with the records around it. -/
def Tallies (l : List Record) : Prop :=
  ∀ passed filesChecked rulesExecuted findings errors,
    .status passed filesChecked rulesExecuted findings errors ∈ l →
      l.countP Record.isFinding = findings ∧ l.countP Record.isFailure = errors

theorem ofLine?_nil : Record.ofLine? [] = none := by
  decide +kernel

theorem filterMap_ofLine?_of_forall₂ {l : List Datum} {rs : List Record}
    (h : List.Forall₂ Says l rs) : (l.map Json.writeChars).filterMap Record.ofLine? = rs := by
  induction h with
  | nil => rfl
  | cons hrecord _ ih => rw [List.map_cons, List.filterMap_cons_some hrecord.ofLine?, ih]

/-- Records that say something are read back from their lines. -/
theorem saidIn_recordLines {l : List Datum} {rs : List Record} (h : List.Forall₂ Says l rs) :
    saidIn (recordLines l) = rs := by
  -- the stretch behind the last newline is no record
  have hend : [[]].filterMap Record.ofLine? = [] := List.filterMap_cons_none ofLine?_nil
  rw [saidIn, splitOn_recordLines (exists_asRead?_of_forall₂ h), List.filterMap_append,
    filterMap_ofLine?_of_forall₂ h, hend, List.append_nil]

end Report

open Report

/-! ### What is written -/

theorem filterMap_filter_of_none {α β : Type} {g : α → Option β} {q : α → Bool}
    (h : ∀ a, q a = false → g a = none) (l : List α) :
    (l.filter q).filterMap g = l.filterMap g := by
  rw [List.filterMap_filter]
  refine List.filterMap_congr fun a _ => ?_
  cases hq : q a with
  | true => rfl
  | false => exact (h a hq).symm

namespace Outcome

/-- What is left of an outcome in its report: the findings and failures at paths that are texts, and
the status of the whole outcome. -/
def written (o : Outcome) : List Record :=
  (o.findings.filter fun f => f.file.text?.isSome).map .finding ++
    (o.failures.filter fun f => f.path.text?.isSome).map
      (fun f => .failure f.path f.error.message) ++
    [.status o.passed o.filesChecked o.rulesExecuted o.findings.length o.failures.length]

theorem forall₂_written {o : Outcome} (hwords : o.FitsWords) :
    List.Forall₂ Says o.records o.written := by
  have hfindings : List.Forall₂ Says (o.findings.filterMap Finding.record?)
      ((o.findings.filter fun f => f.file.text?.isSome).map .finding) := by
    rw [← filterMap_filter_of_none (q := fun f => f.file.text?.isSome)]
    · refine forall₂_filterMap fun f hf => ?_
      obtain ⟨hmem, htext⟩ := List.mem_filter.mp hf
      exact Finding.exists_record? htext (hwords.lines f hmem)
    · intro f hf
      rw [Option.isSome_eq_false_iff, Option.isNone_iff_eq_none] at hf
      rw [Finding.record?, hf, Option.map_none]
  have hfailures : List.Forall₂ Says (o.failures.filterMap LoadFailure.record?)
      ((o.failures.filter fun f => f.path.text?.isSome).map
        fun f => .failure f.path f.error.message) := by
    rw [← filterMap_filter_of_none (q := fun f => f.path.text?.isSome)]
    · refine forall₂_filterMap fun f hf => ?_
      exact LoadFailure.exists_record? (List.mem_filter.mp hf).2
    · intro f hf
      rw [Option.isSome_eq_false_iff, Option.isNone_iff_eq_none] at hf
      rw [LoadFailure.record?, hf, Option.map_none]
  exact List.rel_append (List.rel_append hfindings hfailures) (.cons (says_status hwords) .nil)

/-- A report says of an outcome all but what stands at paths that are no texts. -/
theorem saidIn_recordText {o : Outcome} (hwords : o.FitsWords) :
    saidIn o.recordText = o.written :=
  saidIn_recordLines (forall₂_written hwords)

theorem countP_isFinding_written (o : Outcome) :
    o.written.countP Record.isFinding = o.findings.countP fun f => f.file.text?.isSome := by
  have hall : Record.isFinding ∘ Record.finding = fun _ => true := rfl
  have hnone : Record.isFinding ∘ (fun f : LoadFailure => .failure f.path f.error.message) =
      fun _ => false := rfl
  rw [written, List.countP_append, List.countP_append, List.countP_map, List.countP_map, hall,
    hnone, List.countP_true, List.countP_false, ← List.countP_eq_length_filter]
  rfl

theorem countP_isFailure_written (o : Outcome) :
    o.written.countP Record.isFailure = o.failures.countP fun f => f.path.text?.isSome := by
  have hnone : Record.isFailure ∘ Record.finding = fun _ => false := rfl
  have hall : Record.isFailure ∘ (fun f : LoadFailure => .failure f.path f.error.message) =
      fun _ => true := rfl
  rw [written, List.countP_append, List.countP_append, List.countP_map, List.countP_map, hall,
    hnone, List.countP_true, List.countP_false, ← List.countP_eq_length_filter]
  exact Nat.zero_add _

theorem filter_isStatus_written (o : Outcome) :
    o.written.filter Record.isStatus =
      [.status o.passed o.filesChecked o.rulesExecuted o.findings.length o.failures.length] := by
  have hfinding : Record.isStatus ∘ Record.finding = fun _ => false := rfl
  have hfailure : Record.isStatus ∘ (fun f : LoadFailure => .failure f.path f.error.message) =
      fun _ => false := rfl
  simp [written, hfinding, hfailure, List.filter_map, Record.isStatus]

/-- The only status counts all findings and all failures. -/
theorem tallies_written_iff (o : Outcome) : Tallies o.written ↔ o.PathsAreText := by
  have hstatus : ∀ r, r ∈ o.written ∧ r.isStatus = true ↔ r =
      .status o.passed o.filesChecked o.rulesExecuted o.findings.length o.failures.length := by
    intro r
    rw [← List.mem_filter, filter_isStatus_written, List.mem_singleton]
  have hcounts : Tallies o.written ↔
      o.findings.countP (fun f => f.file.text?.isSome) = o.findings.length ∧
        o.failures.countP (fun f => f.path.text?.isSome) = o.failures.length := by
    rw [← countP_isFinding_written, ← countP_isFailure_written]
    constructor
    · intro h
      exact h _ _ _ _ _ ((hstatus _).mpr rfl).1
    · intro h passed filesChecked rulesExecuted findings errors hmem
      have heq := (hstatus _).mp ⟨hmem, rfl⟩
      cases heq
      exact h
  rw [hcounts, List.countP_eq_length, List.countP_eq_length]
  exact ⟨fun h => ⟨h.1, h.2⟩, fun h => ⟨h.findings, h.failures⟩⟩

/-- **The tally of a report is right exactly if every path is a text.**  Each line of the report is
a record: there is one for each finding and each failure at a path that is a text, in the order of
the outcome, and at last one status, which counts all findings and all failures. -/
theorem tallies_recordText (o : Outcome) (hwords : o.FitsWords) :
    (o.recordText.toList.splitOn '\n').length = (saidIn o.recordText).length + 1 ∧
      saidIn o.recordText =
          (o.findings.filter fun f => f.file.text?.isSome).map .finding ++
            (o.failures.filter fun f => f.path.text?.isSome).map
              (fun f => .failure f.path f.error.message) ++
            [.status o.passed o.filesChecked o.rulesExecuted o.findings.length
              o.failures.length] ∧
        (saidIn o.recordText).countP Record.isFinding =
            (o.findings.countP fun f => f.file.text?.isSome) ∧
          (saidIn o.recordText).countP Record.isFailure =
              (o.failures.countP fun f => f.path.text?.isSome) ∧
            (saidIn o.recordText).filter Record.isStatus =
                [.status o.passed o.filesChecked o.rulesExecuted o.findings.length
                  o.failures.length] ∧
              (Tallies (saidIn o.recordText) ↔
                (∀ f ∈ o.findings, f.file.text?.isSome = true) ∧
                  ∀ f ∈ o.failures, f.path.text?.isSome = true) := by
  have hrecords := forall₂_written hwords
  rw [saidIn_recordText hwords]
  refine ⟨?_, rfl, countP_isFinding_written o, countP_isFailure_written o,
    filter_isStatus_written o, ?_⟩
  · rw [recordText, splitOn_recordLines (exists_asRead?_of_forall₂ hrecords), List.length_append,
      List.length_map, hrecords.length_eq, List.length_singleton]
  · exact (tallies_written_iff o).trans ⟨fun h => ⟨h.findings, h.failures⟩, fun h => ⟨h.1, h.2⟩⟩

/-- The outcome for a playbook whose name is no text and a broken file whose name is one. -/
def unprintableReport : Outcome :=
  { findings :=
      [{ rule := collectionsId, severity := .veryHigh,
         message := "Collection internal.collection.role needs to be included",
         file := ⟨[0x2e, 0x2f, 0xff, 0x2e, 0x79, 0x6d, 0x6c]⟩, line := some 1, task := none }]
    failures := [{ path := .ofText "./broken.yml", error := .invalidYaml (.ofText "./broken.yml") }]
    filesChecked := 2
    rulesExecuted := 2 }

theorem fitsWords_unprintableReport : unprintableReport.FitsWords :=
  ⟨by decide, by decide, by decide, by decide, by decide⟩

theorem tallies_recordText_unprintableReport :
    unprintableReport.FitsWords ∧
      saidIn unprintableReport.recordText =
          [.failure (.ofText "./broken.yml")
              (LoadError.invalidYaml (.ofText "./broken.yml")).message,
            .status false 2 2 1 1] ∧
        (saidIn unprintableReport.recordText).countP Record.isFinding = 0 ∧
          (saidIn unprintableReport.recordText).countP Record.isFailure = 1 ∧
            (saidIn unprintableReport.recordText).filter Record.isStatus =
              [.status false 2 2 1 1] := by
  obtain ⟨-, hsaid, hfindings, hfailures, hstatus, -⟩ :=
    tallies_recordText unprintableReport fitsWords_unprintableReport
  refine ⟨fitsWords_unprintableReport, hsaid.trans ?_, hfindings.trans ?_, hfailures.trans ?_,
    hstatus⟩
  · decide +kernel
  · decide +kernel
  · decide +kernel

/-- **A finding can be counted and yet be missing.** -/
theorem recordText_loses_findings :
    ¬∀ o : Outcome, o.FitsWords → Tallies (saidIn o.recordText) := by
  intro h
  have htext := h unprintableReport fitsWords_unprintableReport
  rw [saidIn_recordText fitsWords_unprintableReport, tallies_written_iff] at htext
  have hfile := htext.findings _ List.mem_cons_self
  revert hfile
  decide +kernel

end Outcome

end PlaybookPolicy
