import PlaybookPolicy.Proofs.JsonRoundTrip
import PlaybookPolicy.Proofs.LoadedFile
import PlaybookPolicy.Report.Human

/-!
# The lines of a report for people

A report for people is a list of texts with a newline behind each: one for every finding and every
failure, an empty one if there are any, the summary and the verdict.  The report takes the texts as
they are.  So a finding stands on one line if its path, its message and the name of its task hold no
newline, and takes one more line for every newline in them; and what stands on such a line may be
the text of a finding that nobody made.

## Main definitions

* `Report.cut` — a text cut at its newlines.
* `Finding.wording`, `LoadFailure.wording` — the text of a finding and of a failure.
* `Finding.newlines`, `LoadFailure.newlines` — the newlines that a finding and a failure bring in.
* `Outcome.texts` — the texts of a report.

## Main results

* `Outcome.toList_humanText` — the report is its texts, with a newline behind each.
* `Finding.length_cut_wording` — **a finding takes a line, and one for each newline in it.**
* `Outcome.cut_humanText` — **the lines of a report.**
* `FileTree.humanText_forges_lines` — a linted file may forge the line of a finding.
-/

namespace PlaybookPolicy

namespace Report

/-! ### Cutting at newlines -/

/-- The text cut at its newlines. -/
def cut (s : String) : List (List Char) :=
  s.toList.splitOn '\n'

/-- The number of newlines in a text. -/
def newlinesIn (s : String) : Nat :=
  s.toList.count '\n'

theorem newlinesIn_append (s s' : String) :
    newlinesIn (s ++ s') = newlinesIn s + newlinesIn s' := by
  rw [newlinesIn, String.toList_append, List.count_append]
  rfl

theorem newlinesIn_eq_zero_iff {s : String} : newlinesIn s = 0 ↔ '\n' ∉ s.toList :=
  List.count_eq_zero

/-- A text has one line more than newlines. -/
theorem length_cut (s : String) : (cut s).length = newlinesIn s + 1 := by
  rw [cut, newlinesIn]
  induction s.toList with
  | nil => rfl
  | cons c l ih =>
    rw [List.splitOn_cons_eq_if_modifyHead]
    by_cases hc : c = '\n'
    · subst hc
      rw [if_pos (by decide), List.length_cons, ih, List.count_cons_self]
    · rw [if_neg (by simpa using hc), List.length_modifyHead, ih, List.count_cons_of_ne hc]

/-- A text without a newline is a line of its own. -/
theorem cut_eq_singleton_iff {s : String} : cut s = [s.toList] ↔ newlinesIn s = 0 := by
  constructor
  · intro h
    have hlength := length_cut s
    rw [h, List.length_singleton] at hlength
    omega
  · intro h
    exact List.splitOn_eq_singleton (newlinesIn_eq_zero_iff.mp h)

/-- Texts with a newline behind each are cut into the lines of each. -/
theorem splitOn_flatMap_newline (l : List String) (rest : List Char) :
    (l.flatMap (fun s => s.toList ++ ['\n']) ++ rest).splitOn '\n' =
      l.flatMap cut ++ rest.splitOn '\n' := by
  induction l with
  | nil => rfl
  | cons s l ih =>
    rw [List.flatMap_cons, List.append_assoc, List.append_assoc, List.singleton_append,
      List.splitOn_append_cons_self, ih, List.flatMap_cons, List.append_assoc]
    rfl

/-! ### Texts without newlines -/

theorem newlinesIn_toString (n : Nat) : newlinesIn (toString n) = 0 := by
  rw [newlinesIn_eq_zero_iff]
  intro hmem
  have hnumeral : isNumeralChar '\n' = true :=
    mem_toString_int (i := n) hmem
  cases hnumeral

theorem newlinesIn_ruleId (id : RuleId) : newlinesIn id.text = 0 := by
  rw [newlinesIn_eq_zero_iff]
  intro hmem
  have hchar := id.valid.2 _ hmem
  revert hchar
  decide

theorem newlinesIn_severity (a : Severity) : newlinesIn a.text = 0 := by
  cases a <;> decide

/-! ### Pieces -/

/-- The piece with or without colours. -/
def Piece.shown (colored : Bool) (p : Piece) : String :=
  if colored then p.colored else p.plain

theorem Piece.shown_ofText (colored : Bool) (s : String) : (Piece.ofText s).shown colored = s := by
  cases colored <;> rfl

/-- Colours bring in no newline. -/
theorem Piece.newlinesIn_shown (colored : Bool) (p : Piece) :
    newlinesIn (p.shown colored) = newlinesIn p.text := by
  cases colored with
  | false => rfl
  | true =>
    obtain ⟨_ | ⟨color, bold⟩, text⟩ := p
    · rfl
    · have hreset : newlinesIn resetControl = 0 := by decide
      have hcontrols : newlinesIn (Style.controls ⟨color, bold⟩) = 0 := by
        cases color <;> cases bold <;> decide
      show newlinesIn (Style.controls ⟨color, bold⟩ ++ text ++ resetControl) = newlinesIn text
      rw [newlinesIn_append, newlinesIn_append, hcontrols, hreset, Nat.zero_add, Nat.add_zero]

end Report

open Report (Piece cut newlinesIn newlinesIn_append)

/-! ### The text of a finding -/

namespace Finding

/-- The severity of a finding, in brackets. -/
def mark (f : Finding) : Piece :=
  { style := some ⟨f.severity.color, false⟩, text := "[" ++ f.severity.text ++ "]" }

/-- The name of the task of a finding, in brackets. -/
def taskNote (f : Finding) : String :=
  match f.task with
  | some name => " (task: " ++ name ++ ")"
  | none => ""

/-- The text of a finding: its place, its severity, its rule, its message and its task. -/
def wording (colored : Bool) (f : Finding) : String :=
  f.place ++ ": " ++ f.mark.shown colored ++ " " ++ f.rule.text ++ ": " ++ f.message ++ f.taskNote

/-- The newlines that a finding brings in: those in its path, its message and its task. -/
def newlines (f : Finding) : Nat :=
  newlinesIn f.file.display + newlinesIn f.message + newlinesIn (f.task.getD "")

theorem toList_pieces (colored : Bool) (f : Finding) :
    f.pieces.flatMap (fun p => (p.shown colored).toList) =
      (f.wording colored).toList ++ ['\n'] := by
  have hpieces : f.pieces = [.ofText (f.place ++ ": "), f.mark,
      .ofText (" " ++ f.rule.text ++ ": " ++ f.message ++ f.taskNote ++ "\n")] := rfl
  rw [hpieces, wording]
  simp [Piece.shown_ofText]

theorem newlinesIn_place (f : Finding) : newlinesIn f.place = newlinesIn f.file.display := by
  rw [place]
  cases f.line with
  | none => rfl
  | some n =>
    show newlinesIn (f.file.display ++ ":" ++ toString n) = _
    rw [newlinesIn_append, newlinesIn_append, Report.newlinesIn_toString]
    rfl

theorem newlinesIn_mark (f : Finding) : newlinesIn f.mark.text = 0 := by
  rw [mark, newlinesIn_append, newlinesIn_append, Report.newlinesIn_severity]
  rfl

theorem newlinesIn_taskNote (f : Finding) :
    newlinesIn f.taskNote = newlinesIn (f.task.getD "") := by
  rw [taskNote]
  cases f.task with
  | none => rfl
  | some name =>
    show newlinesIn (" (task: " ++ name ++ ")") = newlinesIn name
    rw [newlinesIn_append, newlinesIn_append, show newlinesIn " (task: " = 0 by decide,
      show newlinesIn ")" = 0 by decide, Nat.zero_add, Nat.add_zero]

theorem newlinesIn_wording (colored : Bool) (f : Finding) :
    newlinesIn (f.wording colored) = f.newlines := by
  have hcolon : newlinesIn ": " = 0 := by decide
  have hspace : newlinesIn " " = 0 := by decide
  rw [wording, newlines]
  simp only [newlinesIn_append, newlinesIn_place, Piece.newlinesIn_shown, newlinesIn_mark,
    Report.newlinesIn_ruleId, newlinesIn_taskNote, hcolon, hspace, Nat.add_zero]

/-- **A finding takes a line, and one for each newline in it.** -/
theorem length_cut_wording (colored : Bool) (f : Finding) :
    (cut (f.wording colored)).length = f.newlines + 1 := by
  rw [Report.length_cut, newlinesIn_wording]

end Finding

/-! ### The text of a failure -/

namespace LoadFailure

/-- The word that marks a failure. -/
def mark : Piece :=
  { style := some ⟨.red, true⟩, text := "error" }

/-- The text of a failure: a mark, its path and why the file could not be loaded. -/
def wording (colored : Bool) (f : LoadFailure) : String :=
  mark.shown colored ++ ": " ++ f.path.display ++ ": " ++ f.error.message

/-- The newlines that a failure brings in: those in its path and in what is said about it. -/
def newlines (f : LoadFailure) : Nat :=
  newlinesIn f.path.display + newlinesIn f.error.message

theorem toList_pieces (colored : Bool) (f : LoadFailure) :
    f.pieces.flatMap (fun p => (p.shown colored).toList) =
      (f.wording colored).toList ++ ['\n'] := by
  have hpieces : f.pieces =
      [mark, .ofText (": " ++ f.path.display ++ ": " ++ f.error.message ++ "\n")] := rfl
  rw [hpieces, wording]
  simp [Piece.shown_ofText]

theorem newlinesIn_wording (colored : Bool) (f : LoadFailure) :
    newlinesIn (f.wording colored) = f.newlines := by
  have hcolon : newlinesIn ": " = 0 := by decide
  have hmark : newlinesIn mark.text = 0 := by decide
  rw [wording, newlines]
  simp only [newlinesIn_append, Piece.newlinesIn_shown, hmark, hcolon, Nat.zero_add, Nat.add_zero]

/-- A failure takes a line, and one for each newline in it. -/
theorem length_cut_wording (colored : Bool) (f : LoadFailure) :
    (cut (f.wording colored)).length = f.newlines + 1 := by
  rw [Report.length_cut, newlinesIn_wording]

end LoadFailure

/-! ### The texts of a report -/

namespace Report

/-- The verdict of a report. -/
def verdictLine (colored passed : Bool) : String :=
  (if colored then Style.controls ⟨if passed then .green else .red, true⟩ else "") ++
    if passed then "Check PASSED" else "Check FAILED"

/-- What stands behind the last newline of a report: with colours, the sequence that takes the
colour of the verdict back. -/
def lastControl (colored : Bool) : String :=
  if colored then resetControl else ""

end Report

namespace Outcome

/-- The counts of a report. -/
def summaryLine (o : Outcome) : String :=
  "Checked " ++ toString o.filesChecked ++ " file(s) with " ++ toString o.rulesExecuted ++
    " rule(s): " ++ toString o.findings.length ++ " finding(s), " ++
    toString o.failures.length ++ " error(s)"

/-- The texts of a report, in order. -/
def texts (colored : Bool) (o : Outcome) : List String :=
  o.findings.map (Finding.wording colored) ++ o.failures.map (LoadFailure.wording colored) ++
    (if o.passed then [] else [""]) ++ [o.summaryLine, Report.verdictLine colored o.passed]

theorem newlinesIn_summaryLine (o : Outcome) : newlinesIn o.summaryLine = 0 := by
  delta summaryLine
  simp only [newlinesIn_append, Report.newlinesIn_toString]
  decide

theorem newlinesIn_verdictLine (colored passed : Bool) :
    newlinesIn (Report.verdictLine colored passed) = 0 := by
  cases colored <;> cases passed <;> decide

theorem toList_humanText_eq (colored : Bool) (o : Outcome) :
    (o.humanText colored).toList = o.pieces.flatMap fun p => (p.shown colored).toList := by
  cases colored with
  | false => simp [humanText, Report.plainText, String.toList_join, List.flatMap_map, Piece.shown]
  | true => simp [humanText, Report.coloredText, String.toList_join, List.flatMap_map, Piece.shown]

theorem toList_verdict (colored : Bool) (o : Outcome) :
    (o.verdict.shown colored).toList =
      (Report.verdictLine colored o.passed).toList ++
        '\n' :: (Report.lastControl colored).toList := by
  rw [verdict]
  cases colored <;> cases o.passed <;> decide

/-- **The report is its texts, with a newline behind each.** -/
theorem toList_humanText (colored : Bool) (o : Outcome) :
    (o.humanText colored).toList =
      (o.texts colored).flatMap (fun s => s.toList ++ ['\n']) ++
        (Report.lastControl colored).toList := by
  have hsummary : o.summary.toList = o.summaryLine.toList ++ ['\n'] := by
    delta summary summaryLine
    simp only [String.toList_append, List.append_assoc]
    rfl
  have hblank : (if o.passed then [] else [Piece.ofText "\n"]).flatMap
      (fun p => (p.shown colored).toList) =
        (if o.passed then [] else [""]).flatMap fun s : String => s.toList ++ ['\n'] := by
    cases o.passed with
    | true => rfl
    | false => cases colored <;> decide
  rw [toList_humanText_eq, pieces, texts]
  simp only [List.flatMap_append, List.flatMap_assoc, Finding.toList_pieces,
    LoadFailure.toList_pieces, List.flatMap_map, hblank, List.flatMap_cons, List.flatMap_nil,
    Piece.shown_ofText, hsummary, toList_verdict, List.append_assoc, List.append_nil,
    List.cons_append, List.nil_append]

theorem cut_humanText_eq (colored : Bool) (o : Outcome) :
    cut (o.humanText colored) =
      (o.texts colored).flatMap cut ++ [(Report.lastControl colored).toList] := by
  have hlast : (Report.lastControl colored).toList.splitOn '\n' =
      [(Report.lastControl colored).toList] :=
    List.splitOn_eq_singleton (by cases colored <;> decide)
  rw [cut, toList_humanText, Report.splitOn_flatMap_newline, hlast]

/-- **The lines of a report.**  It consists of lines, each with a newline behind it: those of every
finding, in order; those of every failure, in order; an empty one exactly if there is a finding or a
failure; the counts; and the verdict.  A finding takes one line more than there are newlines in its
path, its message and the name of its task, and a failure one more than there are in its path and in
what is said about it; so each stands on one line, its text, exactly if there are none. -/
theorem cut_humanText (o : Outcome) (colored : Bool) :
    cut (o.humanText colored) =
        o.findings.flatMap (fun f => cut (f.wording colored)) ++
          o.failures.flatMap (fun f => cut (f.wording colored)) ++
            (if o.findings = [] ∧ o.failures = [] then [] else [[]]) ++
              [o.summaryLine.toList, (Report.verdictLine colored o.passed).toList,
                (Report.lastControl colored).toList] ∧
      (∀ f ∈ o.findings, (cut (f.wording colored)).length = f.newlines + 1 ∧
        (cut (f.wording colored) = [(f.wording colored).toList] ↔ f.newlines = 0)) ∧
      ∀ f ∈ o.failures, (cut (f.wording colored)).length = f.newlines + 1 ∧
        (cut (f.wording colored) = [(f.wording colored).toList] ↔ f.newlines = 0) := by
  refine ⟨?_, fun f _ => ⟨f.length_cut_wording colored, ?_⟩,
    fun f _ => ⟨f.length_cut_wording colored, ?_⟩⟩
  · have hblank : (if o.passed then [] else [""]).flatMap cut =
        if o.findings = [] ∧ o.failures = [] then [] else [[]] := by
      by_cases h : o.passed = true
      · rw [if_pos h, if_pos (o.passed_iff.mp h), List.flatMap_nil]
      · rw [if_neg h, if_neg (fun hempty => h (o.passed_iff.mpr hempty))]
        decide
    rw [cut_humanText_eq, texts]
    simp only [List.flatMap_append, List.flatMap_map, hblank, List.flatMap_cons, List.flatMap_nil,
      Report.cut_eq_singleton_iff.mpr o.newlinesIn_summaryLine,
      Report.cut_eq_singleton_iff.mpr (newlinesIn_verdictLine colored o.passed),
      List.append_assoc, List.append_nil, List.cons_append, List.nil_append]
  · rw [Report.cut_eq_singleton_iff, f.newlinesIn_wording]
  · rw [Report.cut_eq_singleton_iff, f.newlinesIn_wording]

end Outcome

/-! ### Forged lines -/

namespace FileTree

/-- A file in which something is found has been loaded. -/
theorem failureAt?_of_findingsAt {t : FileTree} {g : Registry} {p : Path}
    (h : t.findingsAt g p ≠ []) : t.failureAt? p = none := by
  rw [findingsAt] at h
  rw [failureAt?]
  cases hload : t.load p with
  | error e =>
    rw [hload] at h
    exact absurd rfl h
  | ok f => rfl

/-- A finding that nobody made. -/
def forgedFinding : Finding :=
  { rule := ⟨"x", by decide⟩, severity := .low, message := "y", file := .ofText "b.yml",
    line := none, task := none }

/-- A task that mails to an address that goes on, on the next line, as that finding does. -/
def forgingTree : FileTree :=
  { nodes :=
      [([Text.Utf8.encode "a.yml"], .file (Text.Utf8.encode
        "- mail:\n    to: \"z\\nb.yml: [LOW] x: y\"\n"))]
    here := [] }

/-- What is found in that task. -/
def forgingFinding : Finding :=
  { rule := recipientsId, severity := .veryHigh,
    message := "Email recipients must use an allowed domain: z\nb.yml: [LOW] x: y",
    file := .ofText "a.yml", line := none, task := none }

theorem lint_forgingTree :
    (forgingTree.lint .builtin [.ofText "a.yml"]).findings = [forgingFinding] ∧
      (forgingTree.lint .builtin [.ofText "a.yml"]).failures = [] := by
  have hfindings : forgingTree.findingsAt .builtin (.ofText "a.yml") = [forgingFinding] := by
    decide +kernel
  have hfailure : forgingTree.failureAt? (.ofText "a.yml") = none :=
    failureAt?_of_findingsAt (by rw [hfindings]; exact List.cons_ne_nil _ _)
  rw [lint_eq]
  simp [hfindings, hfailure]

theorem cut_forgingTree :
    cut ((forgingTree.lint .builtin [.ofText "a.yml"]).humanText false) =
      cut (forgingFinding.wording false) ++ [[],
        (forgingTree.lint .builtin [.ofText "a.yml"]).summaryLine.toList,
          "Check FAILED".toList, []] := by
  have hfindings := lint_forgingTree
  generalize forgingTree.lint .builtin [.ofText "a.yml"] = o at hfindings ⊢
  obtain ⟨hfindings, hfailures⟩ := hfindings
  have hpassed : o.passed = false := by rw [Outcome.passed, hfindings]; rfl
  have hverdict : cut (Report.verdictLine false false) = ["Check FAILED".toList] := by decide
  rw [Outcome.cut_humanText_eq, Outcome.texts, hfindings, hfailures, hpassed]
  simp [Report.cut_eq_singleton_iff.mpr o.newlinesIn_summaryLine, hverdict,
    Report.cut_eq_singleton_iff.mpr (show newlinesIn "" = 0 from rfl), Report.lastControl]

/-- **A linted file may forge the line of a finding**, and so one finding may stand on several
lines. -/
theorem humanText_forges_lines :
    (¬∀ (t : FileTree) (g : Registry) (files : List Path) (colored : Bool),
        let o := t.lint g files
        ∃ findingLines failureLines : List (List Char),
          findingLines.length = o.findings.length ∧ failureLines.length = o.failures.length ∧
            cut (o.humanText colored) = findingLines ++ failureLines ++
              (if o.findings = [] ∧ o.failures = [] then [] else [[]]) ++
                [o.summaryLine.toList, (Report.verdictLine colored o.passed).toList,
                  (Report.lastControl colored).toList]) ∧
      ¬∀ (t : FileTree) (g : Registry) (files : List Path) (colored : Bool) (x : Finding),
        (x.wording colored).toList ∈ cut ((t.lint g files).humanText colored) →
          x ∈ (t.lint g files).findings := by
  have hfindings := lint_forgingTree
  constructor
  · intro h
    obtain ⟨findingLines, failureLines, hone, hnone, hcut⟩ :=
      h forgingTree .builtin [.ofText "a.yml"] false
    rw [hfindings.1] at hone
    rw [hfindings.2] at hnone
    have hlength := congrArg List.length hcut
    have hforged : (cut (forgingFinding.wording false)).length = 2 :=
      (forgingFinding.length_cut_wording false).trans (by decide)
    rw [cut_forgingTree, hfindings.1] at hlength
    simp [hone, hnone, hforged] at hlength
  · intro h
    have hwording : (forgingFinding.wording false).toList =
        "a.yml: [VERY_HIGH] email-address-validation: ".toList ++
          "Email recipients must use an allowed domain: z".toList ++
            '\n' :: (forgedFinding.wording false).toList := by decide +kernel
    have hline : (forgedFinding.wording false).toList.splitOn '\n' =
        [(forgedFinding.wording false).toList] := by decide +kernel
    have hforged : (forgedFinding.wording false).toList ∈
        cut ((forgingTree.lint .builtin [.ofText "a.yml"]).humanText false) := by
      rw [cut_forgingTree, cut, hwording, List.splitOn_append_cons_self, hline]
      exact List.mem_append_left _ (List.mem_append_right _ List.mem_cons_self)
    have hmem := h forgingTree .builtin [.ofText "a.yml"] false forgedFinding hforged
    rw [hfindings.1, List.mem_singleton] at hmem
    have hseverity : Severity.low = .veryHigh := congrArg Finding.severity hmem
    cases hseverity

end FileTree

end PlaybookPolicy
