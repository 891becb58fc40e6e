import PlaybookPolicy.Proofs.LoadedFile
import PlaybookPolicy.Proofs.RecordStream

/-!
# What the exit code of a check says

A check passes through four stages: the configuration, the rules, the list of files, and the files
themselves.  The first stage that fails decides the exit code; if none does, the outcome decides it,
and the report says the same as the code.  The choice of a form of output, and of colours, has no
part in the code.

## Main definitions

* `FileTree.configText?`, `FileTree.configData?` — the text of the configuration of a run, and the
  data that it holds.
* `FileTree.Configures` — the run has a sound configuration.
* `FileTree.Lints` — the run comes as far as linting files.
* `Report.Announces` — a report ends with a verdict.

## Main results

* `Config.sameButOutput_of_data` — data that agree but for the section on output give configurations
  that agree but for the choices on output.
* `FileTree.stages` — all that can become of a check.
* `FileTree.check_exitCode` — **the exit code tells the truth, and the report agrees with it.**
-/

namespace PlaybookPolicy

/-! ### Configurations in plain data -/

namespace Config

theorem validate_cases (c : Config) :
    (c.fault? = none ∧ c.validate = .ok c) ∨
      ∃ reason, c.fault? = some reason ∧ c.validate = .error (.invalid reason) := by
  cases h : c.fault? with
  | none => exact .inl ⟨rfl, by rw [validate, h]⟩
  | some reason => exact .inr ⟨reason, rfl, by rw [validate, h]⟩

theorem parse_of_ofDatum? {text : String} {d : Datum} {c : Config}
    (hd : Toml.read? text = some d) (hc : ofDatum? d = some c) : parse text = c.validate := by
  rw [parse, hd, Option.bind_some, hc]

theorem parse_eq_malformed_iff {text : String} :
    parse text = .error .malformed ↔ (Toml.read? text).bind ofDatum? = none := by
  rw [parse]
  cases (Toml.read? text).bind ofDatum? with
  | none => simp
  | some c =>
    rcases c.validate_cases with ⟨-, h⟩ | ⟨reason, -, h⟩
    · simp [h]
    · simp [h]

theorem parse_eq_ok_iff {text : String} {c : Config} :
    parse text = .ok c ↔
      ∃ d, Toml.read? text = some d ∧ ofDatum? d = some c ∧ c.fault? = none := by
  constructor
  · intro h
    cases hd : Toml.read? text with
    | none => simp [parse, hd] at h
    | some d =>
      cases hc : ofDatum? d with
      | none => simp [parse, hd, hc] at h
      | some c' =>
        rw [parse_of_ofDatum? hd hc] at h
        rcases c'.validate_cases with ⟨hfault, hvalid⟩ | ⟨reason, -, hvalid⟩
        · rw [hvalid] at h
          cases h
          exact ⟨d, rfl, hc, hfault⟩
        · rw [hvalid] at h
          cases h
  · rintro ⟨d, hd, hc, hfault⟩
    rw [parse_of_ofDatum? hd hc, validate, hfault]

theorem parse_unusable_iff {text : String} :
    (∃ e, parse text = .error e ∧ e ≠ .malformed) ↔
      ∃ d c reason, Toml.read? text = some d ∧ ofDatum? d = some c ∧ c.fault? = some reason := by
  constructor
  · rintro ⟨e, h, hne⟩
    cases hd : Toml.read? text with
    | none => simp [parse, hd] at h; exact absurd h.symm hne
    | some d =>
      cases hc : ofDatum? d with
      | none => simp [parse, hd, hc] at h; exact absurd h.symm hne
      | some c =>
        rw [parse_of_ofDatum? hd hc] at h
        rcases c.validate_cases with ⟨-, hvalid⟩ | ⟨reason, hfault, -⟩
        · rw [hvalid] at h
          cases h
        · exact ⟨d, c, reason, rfl, hc, hfault⟩
  · rintro ⟨d, c, reason, hd, hc, hfault⟩
    refine ⟨.invalid reason, ?_, by simp⟩
    rw [parse_of_ofDatum? hd hc, validate, hfault]

/-- What data say outside the section on output. -/
def beforeOutput? (d : Datum) : Option Config := do
  let c ← fieldOr {} (setFiles? {}) (d.get? "playlint")
  fieldOr c c.setRules? (d.get? "rules")

theorem ofDatum?_eq_bind (d : Datum) :
    ofDatum? d = (beforeOutput? d).bind fun c => fieldOr c c.setOutput? (d.get? "output") := by
  rw [ofDatum?, beforeOutput?]
  exact (Option.bind_assoc _ _ _).symm

/-- The configurations agree but for the choices on output. -/
def SameButOutput (c c' : Config) : Prop :=
  c' = { c with format := c'.format, color := c'.color }

theorem sameButOutput_of_fieldOr_setOutput? {c c' : Config} {o : Option Datum}
    (h : fieldOr c c.setOutput? o = some c') : c.SameButOutput c' := by
  cases o with
  | none =>
    cases h
    rfl
  | some d =>
    rw [fieldOr, setOutput?] at h
    split at h
    · simp only [Option.bind_eq_bind, Option.bind_eq_some_iff, Option.pure_def,
        Option.some.injEq] at h
      obtain ⟨format, -, color, -, rfl⟩ := h
      rfl
    · cases h

/-- **The section on output has no part in anything else.**  Data that agree but for it give
configurations that agree but for the choices on output. -/
theorem sameButOutput_of_data {d d' : Datum} {c c' : Config}
    (hdata : ∀ key ≠ "output", d'.get? key = d.get? key) (hc : ofDatum? d = some c)
    (hc' : ofDatum? d' = some c') : c.SameButOutput c' := by
  -- the section on output is read last, into what the others have given
  have hbefore : beforeOutput? d' = beforeOutput? d := by
    rw [beforeOutput?, beforeOutput?, hdata "playlint" (by decide), hdata "rules" (by decide)]
  rw [ofDatum?_eq_bind, Option.bind_eq_some_iff] at hc hc'
  rw [hbefore] at hc'
  obtain ⟨b, hb, hbc⟩ := hc
  obtain ⟨b', hb', hbc'⟩ := hc'
  cases hb.symm.trans hb'
  rw [SameButOutput, sameButOutput_of_fieldOr_setOutput? hbc,
    sameButOutput_of_fieldOr_setOutput? hbc']

theorem fault?_default : ({} : Config).fault? = none := by
  decide +kernel

theorem ofDatum?_empty : ofDatum? (.table []) = some {} :=
  rfl

end Config

/-! ### The configuration of a run -/

namespace FileTree

/-- The text of the configuration of a run.  A run without a file given and without the usual one
has none. -/
def configText? (t : FileTree) (file? : Option String) : Option (Except FileError String) :=
  match file? with
  | some file => some (t.readText (Path.ofText file))
  | none =>
    let usual := Path.ofText configFileName
    if t.has usual then some (t.readText usual) else none

/-- The data of the configuration of a run.  Without a text there is nothing in it. -/
def configData? (t : FileTree) (file? : Option String) : Option Datum :=
  match t.configText? file? with
  | none => some (.table [])
  | some (.ok text) => Toml.read? text
  | some (.error _) => none

/-- The run has a sound configuration. -/
def Configures (t : FileTree) (file? : Option String) (c : Config) : Prop :=
  ∃ d, t.configData? file? = some d ∧ Config.ofDatum? d = some c ∧ c.fault? = none

/-- The text of the configuration is no configuration: its syntax or its shape is wrong. -/
def ConfigMalformed (t : FileTree) (file? : Option String) : Prop :=
  ∃ text, t.configText? file? = some (.ok text) ∧ (Toml.read? text).bind Config.ofDatum? = none

/-- The configuration cannot be read, or it has the right shape and does not make sense. -/
def ConfigUnusable (t : FileTree) (file? : Option String) : Prop :=
  (∃ cause, t.configText? file? = some (.error cause)) ∨
    ∃ d c reason, t.configData? file? = some d ∧ Config.ofDatum? d = some c ∧
      c.fault? = some reason

theorem loadConfig_eq (t : FileTree) (file? : Option String) :
    t.loadConfig file? = match t.configText? file? with
      | none => .ok {}
      | some (.error cause) => .error (.unreadable cause)
      | some (.ok text) => Config.parse text := by
  cases file? with
  | some file =>
    simp only [loadConfig, configText?, configAt]
    cases t.readText (Path.ofText file) <;> rfl
  | none =>
    simp only [loadConfig, configText?, configAt]
    by_cases h : t.has (Path.ofText configFileName) = true
    · rw [if_pos h, if_pos h]
      cases t.readText (Path.ofText configFileName) <;> rfl
    · rw [if_neg h, if_neg h]

theorem loadConfig_eq_ok_iff {t : FileTree} {file? : Option String} {c : Config} :
    t.loadConfig file? = .ok c ↔ t.Configures file? c := by
  rw [loadConfig_eq, Configures, configData?]
  cases t.configText? file? with
  | none =>
    constructor
    · intro h
      cases h
      exact ⟨_, rfl, Config.ofDatum?_empty, Config.fault?_default⟩
    · rintro ⟨d, hd, hc, -⟩
      cases hd
      exact congrArg Except.ok (Option.some.inj hc)
  | some r =>
    cases r with
    | error cause => simp
    | ok text => exact Config.parse_eq_ok_iff

theorem loadConfig_eq_malformed_iff {t : FileTree} {file? : Option String} :
    t.loadConfig file? = .error .malformed ↔ t.ConfigMalformed file? := by
  rw [loadConfig_eq, ConfigMalformed]
  cases t.configText? file? with
  | none => simp
  | some r =>
    cases r with
    | error cause => simp
    | ok text =>
      simp only [Option.some.injEq, Except.ok.injEq, exists_eq_left']
      exact Config.parse_eq_malformed_iff

theorem loadConfig_unusable_iff {t : FileTree} {file? : Option String} :
    (∃ e, t.loadConfig file? = .error e ∧ e ≠ .malformed) ↔ t.ConfigUnusable file? := by
  rw [loadConfig_eq, ConfigUnusable, configData?]
  cases t.configText? file? with
  | none =>
    constructor
    · rintro ⟨e, h, -⟩
      cases h
    · rintro (⟨cause, h⟩ | ⟨d, c, reason, hd, hc, hfault⟩)
      · cases h
      · cases hd
        cases hc
        rw [Config.fault?_default] at hfault
        cases hfault
  | some r =>
    cases r with
    | error cause => simp
    | ok text =>
      rw [Config.parse_unusable_iff]
      simp

end FileTree

/-! ### Verdicts -/

namespace Report

/-- The last line of a report for people, as it is printed. -/
def verdictText (passed colored : Bool) : String :=
  let line := if passed then "Check PASSED\n" else "Check FAILED\n"
  if colored then
    "\x1b[0m\x1b[1m" ++ (if passed then "\x1b[32m" else "\x1b[31m") ++ line ++ "\x1b[0m"
  else line

/-- The report ends with a verdict: people find it on the last line, and programs find it in the
record on the last line. -/
def Announces (passed colored : Bool) (format : OutputFormat) (output : String) : Prop :=
  match format with
  | .human =>
    ∃ before, before.toList.getLast? = some '\n' ∧ output = before ++ verdictText passed colored
  | .jsonl =>
    ∃ before status d, output.toList = before ++ status ++ ['\n'] ∧
      (before = [] ∨ before.getLast? = some '\n') ∧ '\n' ∉ status ∧
        Json.read? (String.ofList status) = some d ∧ d.get? "type" = some (.text "status") ∧
          d.get? "passed" = some (.bool passed)

end Report

open Report (Announces verdictText)

namespace Outcome

/-- The pieces of a report before the verdict. -/
def piecesBefore (o : Outcome) : List Report.Piece :=
  o.findings.flatMap Finding.pieces ++ o.failures.flatMap LoadFailure.pieces ++
    (if o.passed then [] else [.ofText "\n"])

theorem join_map_pieces (o : Outcome) (render : Report.Piece → String) :
    String.join (o.pieces.map render) =
      String.join (o.piecesBefore.map render) ++ render (.ofText o.summary) ++
        render o.verdict := by
  have hpieces : o.pieces = o.piecesBefore ++ [.ofText o.summary, o.verdict] := rfl
  apply String.toList_injective
  rw [hpieces]
  simp only [List.map_append, List.map_cons, List.map_nil, String.toList_join,
    String.toList_append, List.flatMap_append, List.flatMap_cons, List.flatMap_nil,
    List.append_nil, List.append_assoc]

theorem getLast?_summary (o : Outcome) : o.summary.toList.getLast? = some '\n' := by
  have hend : " error(s)\n".toList.getLast? = some '\n' := by decide
  obtain ⟨before, hbefore⟩ : ∃ before, o.summary = before ++ " error(s)\n" := ⟨_, rfl⟩
  rw [hbefore, String.toList_append, List.getLast?_append, hend]
  rfl

theorem announces_humanText (o : Outcome) (colored : Bool) :
    Announces o.passed colored .human (o.humanText colored) := by
  have hlast : ∀ before : String, (before ++ o.summary).toList.getLast? = some '\n' := by
    intro before
    rw [String.toList_append, List.getLast?_append, getLast?_summary]
    rfl
  cases colored with
  | true =>
    refine ⟨_, hlast (Report.coloredText o.piecesBefore), ?_⟩
    rw [humanText, if_pos rfl, Report.coloredText, join_map_pieces, verdict]
    cases o.passed <;> rfl
  | false =>
    refine ⟨_, hlast (Report.plainText o.piecesBefore), ?_⟩
    rw [humanText, if_neg Bool.false_ne_true, Report.plainText, join_map_pieces, verdict]
    cases o.passed <;> rfl

/-- The record of the status can be read, whatever the counts are. -/
theorem asRead?_status (o : Outcome) :
    ∃ d, Json.asRead? o.status = some d ∧ d.get? "type" = some (.text "status") ∧
      d.get? "passed" = some (.bool o.passed) :=
  ⟨_, rfl, rfl, rfl⟩

theorem announces_recordText (o : Outcome) (colored : Bool) :
    Announces o.passed colored .jsonl o.recordText := by
  obtain ⟨l, hl⟩ := o.toList_recordText
  obtain ⟨d, hread, htype, hpassed⟩ := o.asRead?_status
  refine ⟨(Report.recordLines l).toList, Json.writeChars o.status, d, hl, ?_,
    Report.newline_notMem_writeChars hread, Json.read?_write hread, htype, hpassed⟩
  rw [Report.toList_recordLines]
  rcases List.eq_nil_or_concat l with rfl | ⟨l, d', rfl⟩
  · exact .inl rfl
  · right
    rw [List.concat_eq_append, List.flatMap_append, List.flatMap_singleton, ← List.append_assoc,
      List.getLast?_concat]

/-- **A report ends with the verdict**, in either form. -/
theorem announces_report (o : Outcome) (format : OutputFormat) (colored : Bool) :
    Announces o.passed colored format (o.report format colored) := by
  cases format with
  | human => exact o.announces_humanText colored
  | jsonl => exact o.announces_recordText colored

end Outcome

/-! ### The stages of a check -/

namespace FileTree

/-- The run comes as far as linting files: it has a sound configuration, the rules fit, and the
files can be listed. -/
def Lints (t : FileTree) (options : CheckOptions) (c : Config) (g : Registry)
    (files : List Path) : Prop :=
  t.Configures options.config c ∧ Registry.ofConfig c = .ok g ∧
    t.discover c (options.paths.map Path.ofText) = .ok files

/-- The run has a sound configuration, but the rules do not fit, or the files cannot be listed. -/
def FailsToList (t : FileTree) (options : CheckOptions) (c : Config) : Prop :=
  t.Configures options.config c ∧
    ((∃ e, Registry.ofConfig c = .error e) ∨
      ∃ g e, Registry.ofConfig c = .ok g ∧
        t.discover c (options.paths.map Path.ofText) = .error e)

variable {t : FileTree} {options : CheckOptions} {c : Config}

theorem setUp_of_config_error {file? : Option String} {e : ConfigError}
    (h : t.loadConfig file? = .error e) : t.setUp file? = .error (.config e) := by
  rw [setUp, h]
  rfl

theorem setUp_of_configures {file? : Option String} (hc : t.Configures file? c) :
    t.setUp file? = do
      let g ← (Registry.ofConfig c).mapError Failure.rule
      return (c, g) := by
  rw [setUp, loadConfig_eq_ok_iff.mpr hc]
  rfl

theorem setUp_of_rule_error {file? : Option String} {e : RuleError}
    (hc : t.Configures file? c) (h : Registry.ofConfig c = .error e) :
    t.setUp file? = .error (.rule e) := by
  rw [setUp_of_configures hc, h]
  rfl

theorem setUp_of_ok {file? : Option String} {g : Registry} (hc : t.Configures file? c)
    (h : Registry.ofConfig c = .ok g) : t.setUp file? = .ok (c, g) := by
  rw [setUp_of_configures hc, h]
  rfl

theorem check_of_setUp_error {e : Failure} (h : t.setUp options.config = .error e)
    (color : Option ColorChoice) : t.check options color = .ofFailure e := by
  rw [check, h]
  rfl

theorem check_of_setUp {g : Registry} (h : t.setUp options.config = .ok (c, g))
    (color : Option ColorChoice) :
    t.check options color = .ofResult ((t.outcome options.paths c g).map fun o =>
      { exitCode := if o.passed then 0 else 1
        output := o.report (options.format.getD c.format) (isColored color c) }) := by
  rw [check, h]
  rfl

theorem check_of_malformed (h : t.ConfigMalformed options.config) (color : Option ColorChoice) :
    t.check options color = .ofFailure (.config .malformed) :=
  check_of_setUp_error (setUp_of_config_error (loadConfig_eq_malformed_iff.mpr h)) color

theorem exitCode_config_of_ne {e : ConfigError} (h : e ≠ .malformed) :
    (Failure.config e).exitCode = 2 := by
  cases e with
  | malformed => exact absurd rfl h
  | unreadable cause => rfl
  | invalid reason => rfl

theorem check_of_unusable (h : t.ConfigUnusable options.config) (color : Option ColorChoice) :
    ∃ e : Failure, e.exitCode = 2 ∧ t.check options color = .ofFailure e := by
  obtain ⟨e, he, hne⟩ := loadConfig_unusable_iff.mpr h
  exact ⟨.config e, exitCode_config_of_ne hne,
    check_of_setUp_error (setUp_of_config_error he) color⟩

theorem check_of_failsToList (h : t.FailsToList options c) (color : Option ColorChoice) :
    ∃ e : Failure, e.exitCode = 2 ∧ t.check options color = .ofFailure e := by
  obtain ⟨hconfig, ⟨e, he⟩ | ⟨g, e, hrules, he⟩⟩ := h
  · exact ⟨.rule e, rfl, check_of_setUp_error (setUp_of_rule_error hconfig he) color⟩
  · refine ⟨.discovery e, rfl, ?_⟩
    rw [check_of_setUp (setUp_of_ok hconfig hrules), outcome, he]
    rfl

theorem check_of_lints {g : Registry} {files : List Path} (h : t.Lints options c g files)
    (color : Option ColorChoice) :
    t.check options color =
      { exitCode := if (t.lint g files).passed then 0 else 1
        output := (t.lint g files).report (options.format.getD c.format) (isColored color c) } := by
  obtain ⟨hconfig, hrules, hfiles⟩ := h
  rw [check_of_setUp (setUp_of_ok hconfig hrules), outcome, hfiles]
  rfl

/-- **A check fails on its configuration, fails behind it, or comes as far as linting.** -/
theorem stages (t : FileTree) (options : CheckOptions) :
    t.ConfigMalformed options.config ∨
      (t.ConfigUnusable options.config ∨ ∃ c, t.FailsToList options c) ∨
        ∃ c g files, t.Lints options c g files := by
  cases h : t.loadConfig options.config with
  | error e =>
    by_cases he : e = .malformed
    · subst he
      exact .inl (loadConfig_eq_malformed_iff.mp h)
    · exact .inr (.inl (.inl (loadConfig_unusable_iff.mp ⟨e, h, he⟩)))
  | ok c =>
    rw [loadConfig_eq_ok_iff] at h
    cases hrules : Registry.ofConfig c with
    | error e => exact .inr (.inl (.inr ⟨c, h, .inl ⟨e, hrules⟩⟩))
    | ok g =>
      cases hfiles : t.discover c (options.paths.map Path.ofText) with
      | error e => exact .inr (.inl (.inr ⟨c, h, .inr ⟨g, e, hrules, hfiles⟩⟩))
      | ok files => exact .inr (.inr ⟨c, g, files, h, hrules, hfiles⟩)

/-! ### Exit codes -/

theorem exitCode_of_failure (h : t.ConfigUnusable options.config ∨ ∃ c, t.FailsToList options c)
    (color : Option ColorChoice) :
    (t.check options color).exitCode = 2 ∧ (t.check options color).output = "" := by
  have he : ∃ e : Failure, e.exitCode = 2 ∧ t.check options color = .ofFailure e := by
    rcases h with h | ⟨c, h⟩
    · exact check_of_unusable h color
    · exact check_of_failsToList h color
  obtain ⟨e, hcode, hcheck⟩ := he
  rw [hcheck]
  exact ⟨hcode, rfl⟩

theorem exitCode_of_malformed (h : t.ConfigMalformed options.config) (color : Option ColorChoice) :
    (t.check options color).exitCode = 3 ∧ (t.check options color).output = "" := by
  rw [check_of_malformed h]
  exact ⟨rfl, rfl⟩

theorem exitCode_of_lints {g : Registry} {files : List Path} (h : t.Lints options c g files)
    (color : Option ColorChoice) :
    (t.check options color).exitCode = if (t.lint g files).passed then 0 else 1 := by
  rw [check_of_lints h]

/-- The two runs have the same roots, their configurations say the same outside the section on
output, and they see the same files. -/
structure AgreesButOutput (t t' : FileTree) (options options' : CheckOptions) : Prop where
  paths : options'.paths = options.paths
  config : ∃ d d', t.configData? options.config = some d ∧
    t'.configData? options'.config = some d' ∧ ∀ key ≠ "output", d'.get? key = d.get? key
  listed : ∀ c, t.Configures options.config c →
    t'.discover c (options.paths.map Path.ofText) = t.discover c (options.paths.map Path.ofText)
  loaded : ∀ c g files, t.Lints options c g files → ∀ p ∈ files, t'.load p = t.load p

variable {t' : FileTree} {options' : CheckOptions}

theorem lint_congr {g : Registry} {files : List Path} (h : ∀ p ∈ files, t'.load p = t.load p) :
    t'.lint g files = t.lint g files :=
  Outcome.ofFiles_congr h

theorem sameButOutput_of_agrees (h : AgreesButOutput t t' options options') {c' : Config}
    (hc : t.Configures options.config c) (hc' : t'.Configures options'.config c') :
    c.SameButOutput c' := by
  obtain ⟨d, d', hd, hd', hdata⟩ := h.config
  obtain ⟨e, he, hec, -⟩ := hc
  obtain ⟨e', he', hec', -⟩ := hc'
  cases hd.symm.trans he
  cases hd'.symm.trans he'
  exact Config.sameButOutput_of_data hdata hec hec'

/-- **Output has no part in the exit code.** -/
theorem exitCode_eq_of_agrees (h : AgreesButOutput t t' options options')
    {c' : Config} (hc : t.Configures options.config c) (hc' : t'.Configures options'.config c')
    (color color' : Option ColorChoice) :
    (t'.check options' color').exitCode = (t.check options color).exitCode := by
  have hsame := sameButOutput_of_agrees h hc hc'
  -- neither the rules nor the list of files look at the choices on output
  have hrules : Registry.ofConfig c' = Registry.ofConfig c := by
    rw [hsame]
    rfl
  have hfiles : t'.discover c' (options'.paths.map Path.ofText) =
      t.discover c (options.paths.map Path.ofText) := by
    rw [h.paths, ← h.listed c hc, hsame]
    rfl
  cases hg : Registry.ofConfig c with
  | error e =>
    rw [(exitCode_of_failure (.inr ⟨c, hc, .inl ⟨e, hg⟩⟩) color).1,
      (exitCode_of_failure (.inr ⟨c', hc', .inl ⟨e, hrules.trans hg⟩⟩) color').1]
  | ok g =>
    cases hl : t.discover c (options.paths.map Path.ofText) with
    | error e =>
      rw [(exitCode_of_failure (.inr ⟨c, hc, .inr ⟨g, e, hg, hl⟩⟩) color).1,
        (exitCode_of_failure (.inr ⟨c', hc', .inr ⟨g, e, hrules.trans hg, hfiles.trans hl⟩⟩)
          color').1]
    | ok files =>
      have hlints : t.Lints options c g files := ⟨hc, hg, hl⟩
      have hlints' : t'.Lints options' c' g files := ⟨hc', hrules.trans hg, hfiles.trans hl⟩
      rw [exitCode_of_lints hlints, exitCode_of_lints hlints',
        lint_congr (h.loaded c g files hlints)]

/-- Nor have the choices on the command line. -/
theorem exitCode_eq_of_options (hpaths : options'.paths = options.paths)
    (hconfig : options'.config = options.config) (color color' : Option ColorChoice) :
    (t.check options' color').exitCode = (t.check options color).exitCode := by
  rcases t.stages options with h | h | ⟨c, g, files, h⟩
  · have h' : t.ConfigMalformed options'.config := by rwa [hconfig]
    rw [(exitCode_of_malformed h color).1, (exitCode_of_malformed h' color').1]
  · have h' : t.ConfigUnusable options'.config ∨ ∃ c, t.FailsToList options' c := by
      simp only [FailsToList, hconfig, hpaths]
      exact h
    rw [(exitCode_of_failure h color).1, (exitCode_of_failure h' color').1]
  · have h' : t.Lints options' c g files := by
      rw [Lints, hconfig, hpaths]
      exact h
    rw [exitCode_of_lints h, exitCode_of_lints h']

theorem exitCode_eq_three_iff {color : Option ColorChoice} :
    (t.check options color).exitCode = 3 ↔ t.ConfigMalformed options.config := by
  constructor
  · intro hcode
    rcases t.stages options with h | h | ⟨c, g, files, h⟩
    · exact h
    · rw [(exitCode_of_failure h color).1] at hcode
      cases hcode
    · rw [exitCode_of_lints h] at hcode
      split at hcode <;> cases hcode
  · intro h
    exact (exitCode_of_malformed h color).1

theorem exitCode_eq_two_iff {color : Option ColorChoice} :
    (t.check options color).exitCode = 2 ↔
      t.ConfigUnusable options.config ∨ ∃ c, t.FailsToList options c := by
  constructor
  · intro hcode
    rcases t.stages options with h | h | ⟨c, g, files, h⟩
    · rw [(exitCode_of_malformed h color).1] at hcode
      cases hcode
    · exact h
    · rw [exitCode_of_lints h] at hcode
      split at hcode <;> cases hcode
  · intro h
    exact (exitCode_of_failure h color).1

/-- Codes below two mean that files were linted. -/
theorem exists_lints_of_exitCode {color : Option ColorChoice}
    (hcode : (t.check options color).exitCode < 2) : ∃ c g files, t.Lints options c g files := by
  rcases t.stages options with h | h | h
  · rw [(exitCode_of_malformed h color).1] at hcode
    omega
  · rw [(exitCode_of_failure h color).1] at hcode
    omega
  · exact h

theorem exitCode_eq_zero_iff {color : Option ColorChoice} :
    (t.check options color).exitCode = 0 ↔ ∃ c g files, t.Lints options c g files ∧
      (t.lint g files).findings = [] ∧ (t.lint g files).failures = [] := by
  constructor
  · intro hcode
    obtain ⟨c, g, files, h⟩ := exists_lints_of_exitCode (by rw [hcode]; decide)
    rw [exitCode_of_lints h] at hcode
    refine ⟨c, g, files, h, (t.lint g files).passed_iff.mp ?_⟩
    split at hcode
    · assumption
    · cases hcode
  · rintro ⟨c, g, files, h, hclean⟩
    rw [exitCode_of_lints h, if_pos ((t.lint g files).passed_iff.mpr hclean)]

theorem exitCode_eq_one_iff {color : Option ColorChoice} :
    (t.check options color).exitCode = 1 ↔ ∃ c g files, t.Lints options c g files ∧
      ((t.lint g files).findings ≠ [] ∨ (t.lint g files).failures ≠ []) := by
  have hdirty : ∀ o : Outcome, ¬o.passed = true ↔ o.findings ≠ [] ∨ o.failures ≠ [] := by
    intro o
    rw [o.passed_iff, not_and_or]
  constructor
  · intro hcode
    obtain ⟨c, g, files, h⟩ := exists_lints_of_exitCode (by rw [hcode]; decide)
    rw [exitCode_of_lints h] at hcode
    refine ⟨c, g, files, h, (hdirty _).mp ?_⟩
    split at hcode
    · cases hcode
    · assumption
  · rintro ⟨c, g, files, h, hfaulty⟩
    rw [exitCode_of_lints h, if_neg ((hdirty _).mpr hfaulty)]

theorem announces_of_lints {g : Registry} {files : List Path} (h : t.Lints options c g files)
    (color : Option ColorChoice) :
    Announces ((t.check options color).exitCode == 0) (isColored color c)
      (options.format.getD c.format) (t.check options color).output := by
  have hcode : ((t.check options color).exitCode == 0) = (t.lint g files).passed := by
    rw [exitCode_of_lints h]
    cases (t.lint g files).passed <;> rfl
  rw [hcode, check_of_lints h]
  exact (t.lint g files).announces_report _ _

/-- **The exit code tells the truth, and the report agrees with it.**  It is three if the text of
the configuration is none; two if the configuration cannot be used, the rules do not fit or the
files cannot be listed; and otherwise zero or one, by what the files hold.  A failure prints no
report, and a report ends with the verdict that the code gives.  The code is the same for all forms
of output, and for all configurations that agree but for the section on output. -/
theorem check_exitCode (t : FileTree) (options : CheckOptions) (color : Option ColorChoice) :
    ((t.check options color).exitCode = 3 ↔ t.ConfigMalformed options.config) ∧
      ((t.check options color).exitCode = 2 ↔
        t.ConfigUnusable options.config ∨ ∃ c, t.FailsToList options c) ∧
      ((t.check options color).exitCode = 0 ↔ ∃ c g files, t.Lints options c g files ∧
        (t.lint g files).findings = [] ∧ (t.lint g files).failures = []) ∧
      ((t.check options color).exitCode = 1 ↔ ∃ c g files, t.Lints options c g files ∧
        ((t.lint g files).findings ≠ [] ∨ (t.lint g files).failures ≠ [])) ∧
      ((t.check options color).exitCode = 2 ∨ (t.check options color).exitCode = 3 →
        (t.check options color).output = "") ∧
      (∀ c g files, t.Lints options c g files →
        Announces ((t.check options color).exitCode == 0) (isColored color c)
          (options.format.getD c.format) (t.check options color).output) ∧
      (∀ options' color', options'.paths = options.paths → options'.config = options.config →
        (t.check options' color').exitCode = (t.check options color).exitCode) ∧
      ∀ t' options' color' c c', AgreesButOutput t t' options options' →
        t.Configures options.config c → t'.Configures options'.config c' →
          (t'.check options' color').exitCode = (t.check options color).exitCode := by
  refine ⟨exitCode_eq_three_iff, exitCode_eq_two_iff, exitCode_eq_zero_iff, exitCode_eq_one_iff,
    ?_, fun c g files h => announces_of_lints h color, ?_, ?_⟩
  · rintro (h | h)
    · exact (exitCode_of_failure (exitCode_eq_two_iff.mp h) color).2
    · exact (exitCode_of_malformed (exitCode_eq_three_iff.mp h) color).2
  · intro options' color' hpaths hconfig
    exact exitCode_eq_of_options hpaths hconfig color color'
  · intro t' options' color' c c' h hc hc'
    exact exitCode_eq_of_agrees h hc hc' color color'

end FileTree

end PlaybookPolicy
