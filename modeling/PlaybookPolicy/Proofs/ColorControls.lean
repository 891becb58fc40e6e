import Mathlib.Data.List.TakeWhile
import PlaybookPolicy.Proofs.LossyText
import PlaybookPolicy.Proofs.ReportLines

/-!
# The colours of a report for people

A terminal reads a text as characters to show and control sequences between them: an escape
character, a bracket, and what follows up to the first `m`.  In a report with colours the styled
pieces stand between such sequences.  As long as nothing that is reported holds an escape character,
a terminal reads just the sequences that the report puts in: without them, what is left is the
report without colours, and each of them that begins a style is taken back before the report ends.

## Main definitions

* `Report.Token`, `Report.tokens` — what a terminal reads.
* `Report.stripped` — a text without its control sequences.
* `Report.Closed` — all styles are taken back.
* `Outcome.Unescaped` — nothing that is reported holds an escape character.

## Main results

* `Report.tokens_coloredText` — **what a terminal reads of coloured pieces.**
* `Outcome.stripped_humanText` — **a report with colours is the one without, but for its control
  sequences.**
-/

namespace PlaybookPolicy

namespace Report

/-! ### Texts without escape characters -/

/-- The character that begins a control sequence. -/
def escape : Char := '\x1b'

/-- The text holds no escape character. -/
def NoEscape (s : String) : Prop :=
  escape ∉ s.toList

instance : DecidablePred NoEscape :=
  fun s => inferInstanceAs (Decidable (escape ∉ s.toList))

@[simp] theorem noEscape_append {s s' : String} :
    NoEscape (s ++ s') ↔ NoEscape s ∧ NoEscape s' := by
  simp [NoEscape, not_or]

theorem noEscape_toString (n : Nat) : NoEscape (toString n) := by
  intro hmem
  have hnumeral : isNumeralChar escape = true := mem_toString_int (i := n) hmem
  revert hnumeral
  decide

@[simp] theorem noEscape_ruleId (id : RuleId) : NoEscape id.text := by
  intro hmem
  have hchar := id.valid.2 _ hmem
  revert hchar
  decide

@[simp] theorem noEscape_severity (a : Severity) : NoEscape a.text := by
  cases a <;> decide

/-- A path is shown without an escape character if its octets hold none. -/
theorem noEscape_display {p : Path} (h : escape.toNat.toUInt8 ∉ p.octets) :
    NoEscape p.display := by
  intro hmem
  obtain ⟨b, hb, hcode⟩ := Text.Utf8.exists_mem_of_decodeLossy (by decide) (by decide) hmem
  refine h ?_
  rwa [← hcode, Nat.toUInt8, UInt8.ofNat_toNat]

/-! ### What a terminal reads -/

/-- A unit of what a terminal reads. -/
inductive Token where
  /-- A character to show. -/
  | char (c : Char)
  /-- A control sequence, with what stands between its bracket and the `m` that ends it. -/
  | control (parameters : List Char)
  deriving DecidableEq

/-- The sequence that takes all styles back. -/
def Token.reset : Token :=
  .control ['0']

/-- The character of a unit, if it is one to show. -/
def Token.char? : Token → Option Char
  | char c => some c
  | control _ => none

@[simp] theorem Token.char?_char (c : Char) : (char c).char? = some c := rfl

@[simp] theorem Token.char?_comp_char : char? ∘ char = some := rfl

@[simp] theorem Token.char?_control (parameters : List Char) :
    (control parameters).char? = none := rfl

/-- The control sequence that a text begins with, and the text behind it.  The sequence goes up to
the first `m` behind the escape character and the bracket. -/
def controlAt? : List Char → Option (List Char × List Char)
  | '\x1b' :: '[' :: l =>
    match l.span (· != 'm') with
    | (parameters, _ :: rest) => some (parameters, rest)
    | (_, []) => none
  | _ => none

theorem length_lt_of_controlAt? {l parameters rest : List Char}
    (h : controlAt? l = some (parameters, rest)) : rest.length < l.length := by
  unfold controlAt? at h
  split at h
  · next l =>
    rw [List.span_eq_takeWhile_dropWhile] at h
    have hle := (List.dropWhile_suffix (· != 'm') (l := l)).length_le
    split at h
    · next hspan =>
      simp only [Prod.mk.injEq, Option.some.injEq] at hspan h
      rw [hspan.2, h.2, List.length_cons] at hle
      simp only [List.length_cons]
      omega
    · cases h
  · cases h

/-- What a terminal reads of a text. -/
def tokens : List Char → List Token
  | [] => []
  | c :: l =>
    match _ : controlAt? (c :: l) with
    | some (parameters, rest) => .control parameters :: tokens rest
    | none => .char c :: tokens l
termination_by l => l.length
decreasing_by
  · exact length_lt_of_controlAt? ‹_›
  · simp

/-- The text without its control sequences. -/
def stripped (s : String) : String :=
  String.ofList ((tokens s.toList).filterMap Token.char?)

/-- Each control sequence that is no reset has a reset behind it. -/
def Closed (l : List Token) : Prop :=
  ∀ before parameters after, l = before ++ .control parameters :: after →
    .control parameters ≠ Token.reset → Token.reset ∈ after

@[simp] theorem tokens_nil : tokens [] = [] := by
  rw [tokens]

theorem tokens_cons_of_ne {c : Char} (h : c ≠ escape) (l : List Char) :
    tokens (c :: l) = .char c :: tokens l := by
  have hnone : controlAt? (c :: l) = none := by
    unfold controlAt?
    split
    · next heq =>
      cases heq
      exact absurd rfl h
    · rfl
  rw [tokens]
  split
  · next hsome =>
    rw [hnone] at hsome
    cases hsome
  · rfl

/-- A text without an escape character is read as its characters, whatever stands behind it. -/
theorem tokens_append_of_notMem {l : List Char} (h : escape ∉ l) (m : List Char) :
    tokens (l ++ m) = l.map .char ++ tokens m := by
  induction l with
  | nil => rfl
  | cons c l ih =>
    rw [List.mem_cons, not_or] at h
    rw [List.cons_append, tokens_cons_of_ne (Ne.symm h.1), ih h.2, List.map_cons, List.cons_append]

/-- A control sequence is read as such, whatever stands behind it. -/
theorem tokens_control {n : Nat} (hn : 'm' ∉ (toString n).toList) (m : List Char) :
    tokens ((control n).toList ++ m) = .control (toString n).toList :: tokens m := by
  have hne : ∀ c ∈ (toString n).toList, (c != 'm') = true := by
    intro c hc
    rw [bne_iff_ne]
    rintro rfl
    exact hn hc
  have hat : controlAt? ('\x1b' :: '[' :: ((toString n).toList ++ 'm' :: m)) =
      some ((toString n).toList, m) := by
    rw [controlAt?, List.span_eq_takeWhile_dropWhile, List.takeWhile_append_of_pos hne,
      List.dropWhile_append_of_pos hne, List.takeWhile_cons_of_neg (by decide),
      List.dropWhile_cons_of_neg (by decide), List.append_nil]
  have hcontrol : (control n).toList ++ m = '\x1b' :: '[' :: ((toString n).toList ++ 'm' :: m) := by
    simp [control]
  rw [hcontrol, tokens]
  split
  · next hsome =>
    rw [hat] at hsome
    cases hsome
    rfl
  · next hnone =>
    rw [hat] at hnone
    cases hnone

/-! ### Coloured pieces -/

/-- The control sequences that begin a style. -/
def Style.tokens (s : Style) : List Token :=
  .reset :: (if s.bold then [.control ['1']] else []) ++
    [.control (toString s.color.code).toList]

/-- What a terminal reads of a piece with colours. -/
def Piece.tokens (p : Piece) : List Token :=
  match p.style with
  | none => p.text.toList.map .char
  | some s => s.tokens ++ p.text.toList.map .char ++ [.reset]

theorem tokens_resetControl (m : List Char) :
    Report.tokens (resetControl.toList ++ m) = .reset :: Report.tokens m :=
  tokens_control (n := 0) (by decide) m

theorem tokens_controls (s : Style) (m : List Char) :
    Report.tokens (s.controls.toList ++ m) = s.tokens ++ Report.tokens m := by
  have hcolor : 'm' ∉ (toString s.color.code).toList := by
    cases s.color <;> decide
  rw [Style.controls, Style.tokens, String.toList_append, String.toList_append, List.append_assoc,
    List.append_assoc, tokens_resetControl]
  cases s.bold with
  | false =>
    rw [if_neg Bool.false_ne_true, if_neg Bool.false_ne_true, String.toList_empty, List.nil_append,
      tokens_control hcolor]
    rfl
  | true =>
    have hone : (toString 1).toList = ['1'] := by decide
    rw [if_pos rfl, if_pos rfl, tokens_control (n := 1) (by decide), tokens_control hcolor, hone]
    rfl

theorem tokens_colored {p : Piece} (h : NoEscape p.text) (m : List Char) :
    Report.tokens (p.colored.toList ++ m) = p.tokens ++ Report.tokens m := by
  obtain ⟨_ | s, text⟩ := p
  · exact tokens_append_of_notMem h m
  · show Report.tokens ((s.controls ++ text ++ resetControl).toList ++ m) =
      s.tokens ++ text.toList.map .char ++ [.reset] ++ Report.tokens m
    rw [String.toList_append, String.toList_append, List.append_assoc, List.append_assoc,
      tokens_controls, tokens_append_of_notMem h, tokens_resetControl]
    simp

/-- **What a terminal reads of coloured pieces**: of each piece its characters, and the control
sequences around them. -/
theorem tokens_coloredText {l : List Piece} (h : ∀ p ∈ l, NoEscape p.text) :
    Report.tokens (coloredText l).toList = l.flatMap Piece.tokens := by
  rw [coloredText, String.toList_join, List.flatMap_map]
  induction l with
  | nil => exact tokens_nil
  | cons p l ih =>
    rw [List.forall_mem_cons] at h
    rw [List.flatMap_cons, List.flatMap_cons, tokens_colored h.1, ih h.2]

theorem filterMap_char?_tokens (p : Piece) : p.tokens.filterMap Token.char? = p.text.toList := by
  obtain ⟨_ | ⟨color, bold⟩, text⟩ := p
  · simp [Piece.tokens]
  · cases bold <;> simp [Piece.tokens, Style.tokens, Token.reset, List.filterMap_cons]

/-- Without control sequences, coloured pieces are what they are without colours. -/
theorem stripped_coloredText {l : List Piece} (h : ∀ p ∈ l, NoEscape p.text) :
    stripped (coloredText l) = plainText l := by
  have hplain : (plainText l).toList = l.flatMap fun p => p.text.toList := by
    rw [plainText, String.toList_join, List.flatMap_map]
    rfl
  rw [stripped, tokens_coloredText h, List.filterMap_flatMap, ← String.toList_inj,
    String.toList_ofList, hplain]
  simp only [filterMap_char?_tokens]

/-! ### Styles that are taken back -/

namespace Closed

theorem nil : Closed [] := by
  intro before parameters after h
  simp at h

theorem append {l m : List Token} (hl : Closed l) (hm : Closed m) : Closed (l ++ m) := by
  intro before parameters after h hne
  rcases List.append_eq_append_iff.mp h with ⟨rest, rfl, hrest⟩ | ⟨rest, hl', hrest⟩
  · exact hm rest parameters after hrest hne
  · cases rest with
    | nil => exact hm [] parameters after hrest.symm hne
    | cons t rest =>
      cases hrest
      exact List.mem_append_left m (hl before parameters rest hl' hne)

/-- Nothing stays open before a reset. -/
theorem concat_reset (l : List Token) : Closed (l ++ [.reset]) := by
  intro before parameters after h hne
  rcases List.eq_nil_or_concat after with rfl | ⟨after, t, rfl⟩
  · obtain ⟨-, hlast⟩ := List.append_inj' h rfl
    cases hlast
    exact absurd rfl hne
  · rw [List.concat_eq_append, ← List.cons_append, ← List.append_assoc] at h
    obtain ⟨-, hlast⟩ := List.append_inj' h rfl
    cases hlast
    simp

theorem chars (l : List Char) : Closed (l.map .char) := by
  intro before parameters after h
  have hmem : Token.control parameters ∈ l.map Token.char := by simp [h]
  simp at hmem

theorem piece (p : Piece) : Closed p.tokens := by
  obtain ⟨_ | s, text⟩ := p
  · exact chars text.toList
  · exact concat_reset _

theorem flatMap_pieces (l : List Piece) : Closed (l.flatMap Piece.tokens) := by
  induction l with
  | nil => exact nil
  | cons p l ih => exact (piece p).append ih

end Closed

end Report

open Report (NoEscape Piece Token escape)

/-! ### Reports -/

/-- Nothing that a finding tells from outside holds an escape character: neither its path, nor its
message, nor the name of its task. -/
structure Finding.Unescaped (f : Finding) : Prop where
  file : escape.toNat.toUInt8 ∉ f.file.octets
  message : NoEscape f.message
  task : ∀ name ∈ f.task, NoEscape name

/-- Nothing that a failure tells from outside holds an escape character: neither its path, nor what
is said about it. -/
structure LoadFailure.Unescaped (f : LoadFailure) : Prop where
  path : escape.toNat.toUInt8 ∉ f.path.octets
  error : NoEscape f.error.message

/-- Nothing that is reported holds an escape character. -/
structure Outcome.Unescaped (o : Outcome) : Prop where
  findings : ∀ f ∈ o.findings, f.Unescaped
  failures : ∀ f ∈ o.failures, f.Unescaped

namespace Finding.Unescaped

variable {f : Finding} (h : f.Unescaped)

include h

theorem noEscape_place : NoEscape f.place := by
  have hpath := Report.noEscape_display h.file
  rw [place]
  cases f.line with
  | none => exact hpath
  | some n =>
    have hcolon : NoEscape ":" := by decide
    simp only [Report.noEscape_append]
    exact ⟨⟨hpath, hcolon⟩, Report.noEscape_toString n⟩

theorem noEscape_taskNote : NoEscape f.taskNote := by
  rw [taskNote]
  cases hname : f.task with
  | none => decide
  | some name =>
    have hopen : NoEscape " (task: " := by decide
    have hclose : NoEscape ")" := by decide
    simp [h.task name hname, hopen, hclose]

theorem noEscape_pieces : ∀ p ∈ f.pieces, NoEscape p.text := by
  have hpieces : f.pieces = [.ofText (f.place ++ ": "), f.mark,
      .ofText (" " ++ f.rule.text ++ ": " ++ f.message ++ f.taskNote ++ "\n")] := rfl
  have hcolon : NoEscape ": " := by decide
  have hspace : NoEscape " " := by decide
  have hopen : NoEscape "[" := by decide
  have hclose : NoEscape "]" := by decide
  have hend : NoEscape "\n" := by decide
  rw [hpieces]
  simp [Piece.ofText, mark, h.noEscape_place, h.noEscape_taskNote, h.message, hcolon, hspace,
    hopen, hclose, hend]

end Finding.Unescaped

theorem LoadFailure.Unescaped.noEscape_pieces {f : LoadFailure} (h : f.Unescaped) :
    ∀ p ∈ f.pieces, NoEscape p.text := by
  have hmark : NoEscape "error" := by decide
  have hcolon : NoEscape ": " := by decide
  have hend : NoEscape "\n" := by decide
  simp [pieces, Piece.ofText, Report.noEscape_display h.path, h.error, hmark, hcolon, hend]

namespace Outcome

theorem noEscape_summary (o : Outcome) : NoEscape o.summary := by
  delta summary
  simp only [Report.noEscape_append, Report.noEscape_toString, and_true]
  decide

theorem Unescaped.noEscape_pieces {o : Outcome} (h : o.Unescaped) :
    ∀ p ∈ o.pieces, NoEscape p.text := by
  have hblank : ∀ p ∈ if o.passed then [] else [Piece.ofText "\n"], NoEscape p.text := by
    cases o.passed <;> decide
  have hverdict : NoEscape o.verdict.text := by
    rw [verdict]
    cases o.passed <;> decide
  intro p hp
  simp only [pieces, List.mem_append, List.mem_flatMap, List.mem_cons, List.not_mem_nil,
    or_false] at hp
  rcases hp with ((⟨f, hf, hp⟩ | ⟨f, hf, hp⟩) | hp) | rfl | rfl
  · exact (h.findings f hf).noEscape_pieces p hp
  · exact (h.failures f hf).noEscape_pieces p hp
  · exact hblank p hp
  · exact o.noEscape_summary
  · exact hverdict

/-- **A report with colours is the one without, but for its control sequences.**  If nothing that is
reported holds an escape character, then the report with colours, without its control sequences, is
the report without colours; and a terminal reads no control sequence in it that begins a style
without one further on that takes all styles back. -/
theorem stripped_humanText {o : Outcome} (h : o.Unescaped) :
    Report.stripped (o.humanText true) = o.humanText false ∧
      Report.Closed (Report.tokens (o.humanText true).toList) := by
  have hpieces := h.noEscape_pieces
  have hcolored : o.humanText true = Report.coloredText o.pieces := rfl
  rw [hcolored]
  constructor
  · exact Report.stripped_coloredText hpieces
  · rw [Report.tokens_coloredText hpieces]
    exact Report.Closed.flatMap_pieces o.pieces

/-- A finding whose texts look like the ends of control sequences. -/
def bracketFinding : Finding where
  rule := recipientsId
  severity := .medium
  message := "[31m or [0m"
  file := .ofText "[1m.yml"
  line := some 3
  task := some "m"

/-- A report of such texts. -/
def bracketReport : Outcome where
  findings := [bracketFinding]
  failures := [{ path := ⟨[0x5B, 0xFF, 0x6D]⟩, error := .missingModule (some "[0m") }]
  filesChecked := 2
  rulesExecuted := 1

theorem stripped_humanText_bracketReport :
    bracketReport.Unescaped ∧
      Report.stripped (bracketReport.humanText true) = bracketReport.humanText false ∧
        Report.Closed (Report.tokens (bracketReport.humanText true).toList) := by
  have hfinding : ∀ f ∈ bracketReport.findings, f.Unescaped := by
    intro f hf
    obtain rfl := List.mem_singleton.mp hf
    exact ⟨by decide, by decide, by decide⟩
  have hfailure : ∀ f ∈ bracketReport.failures, f.Unescaped := by
    intro f hf
    obtain rfl := List.mem_singleton.mp hf
    exact ⟨by decide, by decide⟩
  have hunescaped : bracketReport.Unescaped := ⟨hfinding, hfailure⟩
  exact ⟨hunescaped, stripped_humanText hunescaped⟩

end Outcome

end PlaybookPolicy
