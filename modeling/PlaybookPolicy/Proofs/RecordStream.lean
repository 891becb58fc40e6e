import Mathlib.Data.List.Forall2
import PlaybookPolicy.Proofs.DecodedText
import PlaybookPolicy.Proofs.JsonRoundTrip
import PlaybookPolicy.Report.Records

/-!
# A report of records reads back

The records of an outcome stand on one line each, and a reader that knows nothing of the outcome
gets from the lines all that the outcome says: the findings with their rules, places and messages,
the failures, and the status.  Messages, names of tasks and paths may hold any characters; only a
path that is no text cannot be written, and it is for paths that the results ask for text.

## Main definitions

* `Report.Record` — what one line of a report says.
* `Report.Record.ofLine?` — the reader of a line.
* `Outcome.said` — all that an outcome says, in the order of the report.
* `Outcome.PathsAreText`, `Outcome.FitsWords` — the paths are texts, and the numbers fit sixty-four
  bits.
* `Report.Says` — a datum comes back as it was written, and says a record.

## Main results

* `Report.splitOn_recordLines` — the lines of written records.
* `Outcome.forall₂_records` — the records of an outcome say what the outcome says.
* `Outcome.recordText_reads_back` — **the lines of a report read back as the outcome.**
-/

namespace PlaybookPolicy

/-! ### Lines -/

namespace Report

theorem toList_recordLines (l : List Datum) :
    (recordLines l).toList = l.flatMap fun d => Json.writeChars d ++ ['\n'] := by
  simp [recordLines, Json.write, String.toList_join, List.flatMap_map]

theorem newline_notMem_writeChars {d e : Datum} (h : Json.asRead? d = some e) :
    '\n' ∉ Json.writeChars d := by
  intro hmem
  have hle := Json.le_toNat_of_mem_writeChars d e h _ hmem
  exact absurd hle (by decide)

/-- **The lines of written records.**  Each record stands on one line, and nothing follows the
newline of the last. -/
theorem splitOn_recordLines : ∀ {l : List Datum}, (∀ d ∈ l, ∃ e, Json.asRead? d = some e) →
    (recordLines l).toList.splitOn '\n' = l.map Json.writeChars ++ [[]] := by
  intro l
  rw [toList_recordLines]
  induction l with
  | nil =>
    intro _
    exact List.splitOn_nil '\n'
  | cons d l ih =>
    intro h
    rw [List.forall_mem_cons] at h
    obtain ⟨e, he⟩ := h.1
    rw [List.flatMap_cons, List.append_assoc, List.singleton_append,
      List.splitOn_append_cons_self_of_not_mem (newline_notMem_writeChars he), ih h.2,
      List.map_cons, List.cons_append]

/-! ### Reading lines -/

/-- What one line of a report says. -/
inductive Record where
  /-- A rule complains. -/
  | finding (f : Finding)
  /-- A file could not be loaded, for the given reason. -/
  | failure (path : Path) (message : String)
  /-- How the run went. -/
  | status (passed : Bool) (filesChecked rulesExecuted findings errors : Nat)
  deriving DecidableEq

namespace Record

/-- A text. -/
def text? : Datum → Option String
  | .text s => some s
  | _ => none

/-- A text, where null stands for none. -/
def textOrNull? : Datum → Option (Option String)
  | .null => some none
  | .text s => some (some s)
  | _ => none

/-- A truth value. -/
def bool? : Datum → Option Bool
  | .bool b => some b
  | _ => none

/-- A natural number. -/
def nat? : Datum → Option Nat
  | .int (.ofNat n) => some n
  | _ => none

/-- A natural number, where null stands for none. -/
def natOrNull? : Datum → Option (Option Nat)
  | .null => some none
  | .int (.ofNat n) => some (some n)
  | _ => none

theorem textOrNull?_ofText? (s : Option String) : textOrNull? (.ofText? s) = some s := by
  cases s <;> rfl

theorem natOrNull?_ofNat? (n : Option Nat) : natOrNull? (.ofNat? n) = some n := by
  cases n <;> rfl

/-- The complaint that a table describes. -/
def finding? (d : Datum) : Option Finding := do
  let rule ← RuleId.ofText? (← text? (← d.get? "rule"))
  let severity ← Severity.ofText? (← text? (← d.get? "severity"))
  let file ← text? (← d.get? "file")
  let line ← natOrNull? (← d.get? "line")
  let task ← textOrNull? (← d.get? "task")
  let message ← text? (← d.get? "message")
  return { rule, severity, message, file := .ofText file, line, task }

/-- The failure that a table describes. -/
def failure? (d : Datum) : Option (Path × String) := do
  let file ← text? (← d.get? "file")
  let message ← text? (← d.get? "message")
  return (.ofText file, message)

/-- What a table says, by its type. -/
def ofDatum? (d : Datum) : Option Record := do
  match ← text? (← d.get? "type") with
  | "finding" => (finding? d).map .finding
  | "error" => (failure? d).map fun (path, message) => .failure path message
  | "status" =>
    return .status (← bool? (← d.get? "passed")) (← nat? (← d.get? "files_checked"))
      (← nat? (← d.get? "rules_executed")) (← nat? (← d.get? "findings"))
      (← nat? (← d.get? "errors"))
  | _ => none

/-- What a line says. -/
def ofLine? (line : List Char) : Option Record :=
  (Json.read? (String.ofList line)).bind ofDatum?

end Record

/-- The datum comes back as it was written, and says the record. -/
def Says (d : Datum) (r : Record) : Prop :=
  Json.asRead? d = some d ∧ Record.ofDatum? d = some r

theorem Says.ofLine? {d : Datum} {r : Record} (h : Says d r) :
    Record.ofLine? (Json.writeChars d) = some r := by
  have hread : Json.read? (String.ofList (Json.writeChars d)) = some d := Json.read?_write h.1
  rw [Record.ofLine?, hread, Option.bind_some, h.2]

theorem exists_asRead?_of_forall₂ {l : List Datum} {rs : List Record} (h : List.Forall₂ Says l rs) :
    ∀ d ∈ l, ∃ e, Json.asRead? d = some e := by
  induction h with
  | nil =>
    intro d hd
    cases hd
  | cons hrecord _ ih => exact List.forall_mem_cons.mpr ⟨⟨_, hrecord.1⟩, ih⟩

theorem map_ofLine?_of_forall₂ {l : List Datum} {rs : List Record} (h : List.Forall₂ Says l rs) :
    (l.map Json.writeChars).map Record.ofLine? = rs.map some := by
  induction h with
  | nil => rfl
  | cons hrecord _ ih => rw [List.map_cons, List.map_cons, List.map_cons, hrecord.ofLine?, ih]

theorem forall₂_filterMap {α β γ : Type} {R : β → γ → Prop} {g : α → Option β} {h : α → γ} :
    ∀ {l : List α}, (∀ a ∈ l, ∃ b, g a = some b ∧ R b (h a)) →
      List.Forall₂ R (l.filterMap g) (l.map h) := by
  intro l
  induction l with
  | nil =>
    intro _
    exact .nil
  | cons a l ih =>
    intro hl
    rw [List.forall_mem_cons] at hl
    obtain ⟨b, hb, hR⟩ := hl.1
    rw [List.filterMap_cons_some hb, List.map_cons]
    exact .cons hR (ih hl.2)

end Report

open Report

/-! ### What an outcome says -/

theorem Path.ofText_of_text? {p : Path} {s : String} (h : p.text? = some s) : .ofText s = p := by
  have henc := Text.Utf8.encode_of_decode? h
  cases p
  exact congrArg Path.mk henc

theorem asRead?_ofText? (s : Option String) : Json.asRead? (.ofText? s) = some (.ofText? s) := by
  cases s <;> rfl

theorem asRead?_natCast {n : Nat} (h : n < Nat.pow 2 64) : Json.asRead? (.int n) = some (.int n) :=
  congrArg some (Json.integerAsRead_natCast h)

theorem asRead?_ofNat? {n : Option Nat} (h : ∀ m ∈ n, m < Nat.pow 2 64) :
    Json.asRead? (.ofNat? n) = some (.ofNat? n) := by
  cases n with
  | none => rfl
  | some m => exact asRead?_natCast (h m rfl)

namespace Outcome

/-- All that an outcome says, in the order of the report. -/
def said (o : Outcome) : List Record :=
  o.findings.map .finding ++ o.failures.map (fun f => .failure f.path f.error.message) ++
    [.status o.passed o.filesChecked o.rulesExecuted o.findings.length o.failures.length]

/-- Every path in the outcome is a text. -/
structure PathsAreText (o : Outcome) : Prop where
  findings : ∀ f ∈ o.findings, f.file.text?.isSome = true
  failures : ∀ f ∈ o.failures, f.path.text?.isSome = true

/-- Every number in the outcome fits sixty-four bits. -/
structure FitsWords (o : Outcome) : Prop where
  lines : ∀ f ∈ o.findings, ∀ n ∈ f.line, n < Nat.pow 2 64
  filesChecked : o.filesChecked < Nat.pow 2 64
  rulesExecuted : o.rulesExecuted < Nat.pow 2 64
  findings : o.findings.length < Nat.pow 2 64
  failures : o.failures.length < Nat.pow 2 64

end Outcome

theorem Finding.exists_record? {f : Finding} (htext : f.file.text?.isSome = true)
    (hline : ∀ n ∈ f.line, n < Nat.pow 2 64) : ∃ d, f.record? = some d ∧ Says d (.finding f) := by
  obtain ⟨s, hs⟩ := Option.isSome_iff_exists.mp htext
  refine ⟨_, by rw [record?, hs, Option.map_some], ?_, ?_⟩
  · simp [Json.asRead?, Json.entriesAsRead?, asRead?_ofNat? hline, asRead?_ofText?]
  · simp [Record.ofDatum?, Record.finding?, Datum.get?, Datum.entries?, List.lookup_cons,
      Record.text?, Record.natOrNull?_ofNat?, Record.textOrNull?_ofText?, RuleId.ofText?_text,
      Severity.ofText?_text, Path.ofText_of_text? hs]

theorem LoadFailure.exists_record? {f : LoadFailure} (htext : f.path.text?.isSome = true) :
    ∃ d, f.record? = some d ∧ Says d (.failure f.path f.error.message) := by
  obtain ⟨s, hs⟩ := Option.isSome_iff_exists.mp htext
  refine ⟨_, by rw [record?, hs, Option.map_some], rfl, ?_⟩
  simp [Record.ofDatum?, Record.failure?, Datum.get?, Datum.entries?, List.lookup_cons,
    Record.text?, Path.ofText_of_text? hs]

namespace Outcome

theorem says_status {o : Outcome} (hwords : o.FitsWords) :
    Says o.status
      (.status o.passed o.filesChecked o.rulesExecuted o.findings.length o.failures.length) := by
  refine ⟨?_, rfl⟩
  simp [status, Json.asRead?, Json.entriesAsRead?, Json.integerAsRead_natCast hwords.filesChecked,
    Json.integerAsRead_natCast hwords.rulesExecuted, Json.integerAsRead_natCast hwords.findings,
    Json.integerAsRead_natCast hwords.failures]

/-- **The records of an outcome say what the outcome says**, one by one. -/
theorem forall₂_records {o : Outcome} (htext : o.PathsAreText) (hwords : o.FitsWords) :
    List.Forall₂ Says o.records o.said := by
  have hfindings := forall₂_filterMap fun f hf =>
    Finding.exists_record? (htext.findings f hf) (hwords.lines f hf)
  have hfailures := forall₂_filterMap fun f hf => LoadFailure.exists_record? (htext.failures f hf)
  exact List.rel_append (List.rel_append hfindings hfailures) (.cons (says_status hwords) .nil)

theorem length_said (o : Outcome) :
    o.said.length = o.findings.length + o.failures.length + 1 := by
  simp [said, Nat.add_assoc]

/-- The record of the status stands on the last line. -/
theorem toList_recordText (o : Outcome) :
    ∃ l : List Datum,
      o.recordText.toList = (recordLines l).toList ++ Json.writeChars o.status ++ ['\n'] := by
  refine ⟨o.findings.filterMap Finding.record? ++ o.failures.filterMap LoadFailure.record?, ?_⟩
  rw [recordText, records, toList_recordLines, toList_recordLines, List.flatMap_append,
    List.flatMap_singleton, List.append_assoc _ (Json.writeChars o.status)]

/-- **The lines of a report read back as the outcome.**  The report ends with a newline; between the
newlines there is one line for each finding, one for each failure and one for the status, and what
these lines say, in their order, is what the outcome says. -/
theorem recordText_reads_back (o : Outcome) (htext : o.PathsAreText) (hwords : o.FitsWords) :
    ∃ lines : List (List Char),
      o.recordText.toList.getLast? = some '\n' ∧
        o.recordText.toList.splitOn '\n' = lines ++ [[]] ∧
          lines.length = o.findings.length + o.failures.length + 1 ∧
            lines.map Record.ofLine? = o.said.map some := by
  have hrecords := forall₂_records htext hwords
  obtain ⟨l, hl⟩ := o.toList_recordText
  refine ⟨o.records.map Json.writeChars, ?_, ?_, ?_, map_ofLine?_of_forall₂ hrecords⟩
  · rw [hl, List.getLast?_concat]
  · exact splitOn_recordLines (exists_asRead?_of_forall₂ hrecords)
  · rw [List.length_map, hrecords.length_eq, length_said]

/-- A report with quotes, backslashes, newlines and control characters in its texts. -/
def sampleReport : Outcome :=
  { findings :=
      [{ rule := recipientsId, severity := .veryHigh, message := "to \"a\\b\"\n\r\t\x00\x1f",
         file := .ofText "roles/\"x\"\n/tasks/main.yml", line := some 7,
         task := some "Zürich → \x08\x0c" },
       { rule := collectionsId, severity := .info, message := "", file := .ofText "site.yml",
         line := none, task := none }]
    failures :=
      [{ path := .ofText "\\broken\x7f.yml", error := .missingModule (some "\"\n\"") }]
    filesChecked := 3
    rulesExecuted := 2 }

theorem recordText_sampleReport :
    sampleReport.PathsAreText ∧ sampleReport.FitsWords ∧
      ∃ lines : List (List Char),
        sampleReport.recordText.toList.getLast? = some '\n' ∧
          sampleReport.recordText.toList.splitOn '\n' = lines ++ [[]] ∧ lines.length = 4 ∧
            lines.map Record.ofLine? = sampleReport.said.map some := by
  have htext : sampleReport.PathsAreText := ⟨by decide +kernel, by decide +kernel⟩
  have hwords : sampleReport.FitsWords := ⟨by decide, by decide, by decide, by decide, by decide⟩
  exact ⟨htext, hwords, recordText_reads_back sampleReport htext hwords⟩

end Outcome

end PlaybookPolicy
