import Mathlib.Tactic.SplitIfs
import PlaybookPolicy.Proofs.MapEntries
import PlaybookPolicy.Program

/-!
# Options that arguments name

A command line is read argument by argument.  An option is set when an argument names it, by its
long name or by its letter, and by nothing else; so what a command is told beyond its defaults was
asked for.  In particular a run writes no configuration anew unless one of its arguments names
`--force`.  How much a run tells on the way has no part in its reply.

## Main definitions

* `NamesOption` — an argument names an option.
* `LevelState.Mentions`, `LevelState.AddsOnly` — the options that were read, and those that a step
  adds.
* `Invocation.Uses` — a command line sets an option.
* `Command.quiet` — a command without a wish for more output on the way.

## Main results

* `LevelState.addsOnly_readArgument` — an argument adds only options that it names.
* `LevelState.addsOnly_read` — so do several arguments.
* `Invocation.exists_named_of_uses` — **an option is set only if an argument names it.**
* `FileTree.execute_of_quiet_eq` — a run replies the same, however much it tells on the way.
* `FileTree.run_of_not_forced` — **without force a run leaves a configuration as it is.**
-/

namespace PlaybookPolicy

variable {o : OptionName} {v : Level} {st st' st'' : LevelState}

/-- The argument names the option: by its long name, or by its letter among others. -/
def NamesOption (s : String) (o : OptionName) : Prop :=
  (∃ value, Argument.ofText s = .long o.text value) ∨
    ∃ l c, Argument.ofText s = .letters l ∧ c ∈ l ∧ o.letter? = some c

theorem Level.text_of_long? {name : String} (h : v.long? name = some o) : o.text = name := by
  unfold long? at h
  have hname := List.find?_some h
  exact eq_of_beq hname

theorem Level.letter?_of_letter? {c : Char} (h : v.letter? c = some o) :
    o.letter? = some c := by
  unfold letter? at h
  have hletter := List.find?_some h
  exact eq_of_beq hletter

theorem exists_of_bind_eq_ok {ε α β : Type} {r : Except ε α} {f : α → Except ε β} {b : β}
    (h : r >>= f = .ok b) : ∃ a, r = .ok a ∧ f a = .ok b := by
  cases r with
  | error e => cases h
  | ok a => exact ⟨a, rfl, h⟩

/-! ### Options that are read -/

namespace LevelState

/-- The option was read, whether it is settled or still pending. -/
def Mentions (st : LevelState) (o : OptionName) : Prop :=
  (∃ value, (o, value) ∈ st.settled) ∨ ∃ value, st.pending = some (o, value)

/-- A step adds options only with the given property. -/
def AddsOnly (P : OptionName → Prop) (st st' : LevelState) : Prop :=
  ∀ o, st'.Mentions o → st.Mentions o ∨ P o

variable {P Q : OptionName → Prop}

theorem AddsOnly.refl (P : OptionName → Prop) (st : LevelState) : AddsOnly P st st :=
  fun _ h => .inl h

theorem AddsOnly.trans (h : AddsOnly P st st') (h' : AddsOnly P st' st'') :
    AddsOnly P st st'' := by
  intro o ho
  rcases h' o ho with ho | hP
  · exact h o ho
  · exact .inr hP

theorem AddsOnly.mono (h : AddsOnly P st st') (hPQ : ∀ o, P o → Q o) : AddsOnly Q st st' :=
  fun o ho => (h o ho).imp_right (hPQ o)

theorem mentions_of_value? {value : String} (h : st.value? o = some value) : st.Mentions o :=
  .inl ⟨value, mem_of_lookup h⟩

theorem addsOnly_record {value : String} (h : st.record o value = .ok st') :
    AddsOnly (· = o) st st' := by
  unfold record at h
  split_ifs at h
  cases h
  rintro x (⟨w, hmem⟩ | hpending)
  · rcases List.mem_cons.mp hmem with heq | hmem
    · exact .inr (Prod.mk.inj heq).1
    · exact .inl (.inl ⟨w, hmem⟩)
  · exact .inl (.inr hpending)

/-- Settling the pending option adds none, since it was read before. -/
theorem addsOnly_settle (h : st.settle = .ok st') : AddsOnly P st st' := by
  unfold settle at h
  split at h
  · cases h
    exact .refl P st
  · cases h
  · next o value hpending =>
    intro x hx
    rcases addsOnly_record h x hx with (hsettled | ⟨w, hnone⟩) | rfl
    · exact .inl (.inl hsettled)
    · cases hnone
    · exact .inl (.inr ⟨some value, hpending⟩)

theorem addsOnly_assign {value : String} (h : st.assign o value = .ok st') :
    AddsOnly (· = o) st st' := by
  obtain ⟨settled, hsettle, hrecord⟩ := exists_of_bind_eq_ok h
  exact (addsOnly_settle hsettle).trans (addsOnly_record hrecord)

theorem addsOnly_await (h : st.await o = .ok st') : AddsOnly (· = o) st st' := by
  obtain ⟨settled, hsettle, hawait⟩ := exists_of_bind_eq_ok h
  cases hawait
  refine (addsOnly_settle hsettle).trans ?_
  rintro x (hsettled | ⟨w, hpending⟩)
  · exact .inl (.inl hsettled)
  · exact .inr (Prod.mk.inj (Option.some.inj hpending)).1.symm

theorem addsOnly_raise (h : st.raise o = .ok st') : AddsOnly (· = o) st st' := by
  obtain ⟨settled, hsettle, hraise⟩ := exists_of_bind_eq_ok h
  refine (addsOnly_settle hsettle).trans ?_
  split at hraise
  · cases hraise
  · cases hraise
  · exact addsOnly_record hraise

theorem addsOnly_fill (value : String) : AddsOnly P st (st.fill value) := by
  rintro x (hsettled | ⟨w, hpending⟩)
  · exact .inl (.inl hsettled)
  · obtain ⟨e, he, heq⟩ := Option.map_eq_some_iff.mp hpending
    obtain ⟨y, w'⟩ := e
    cases heq
    exact .inl (.inr ⟨w', he⟩)

/-! ### Arguments -/

theorem addsOnly_readLong {name : String} {value : Option String}
    (h : st.readLong v name value = .ok st') : AddsOnly (fun o => o.text = name) st st' := by
  unfold readLong at h
  split at h
  · cases h
  · next o ho =>
    have hname : ∀ x, x = o → x.text = name := by
      rintro x rfl
      exact Level.text_of_long? ho
    split at h
    · exact (addsOnly_assign h).mono hname
    · exact (addsOnly_await h).mono hname
    · cases h
    · exact (addsOnly_raise h).mono hname

theorem addsOnly_readLetters {l : List Char} (h : st.readLetters v l = .ok st') :
    AddsOnly (fun o => ∃ c ∈ l, o.letter? = some c) st st' := by
  induction l generalizing st with
  | nil =>
    cases h
    exact .refl _ _
  | cons c l ih =>
    rw [readLetters] at h
    split at h
    · cases h
    · next o ho =>
      have hletter : ∀ x, x = o → ∃ d ∈ c :: l, x.letter? = some d := by
        rintro x rfl
        exact ⟨c, List.mem_cons_self, Level.letter?_of_letter? ho⟩
      split_ifs at h with hvalue
      · -- what follows the letter is its value
        split at h
        · exact (addsOnly_await h).mono hletter
        · exact (addsOnly_assign h).mono hletter
        · exact (addsOnly_assign h).mono hletter
      · split at h
        · next raised hraise =>
          refine ((addsOnly_raise hraise).mono hletter).trans ((ih h).mono ?_)
          rintro x ⟨d, hd, hx⟩
          exact ⟨d, List.mem_cons_of_mem c hd, hx⟩
        · cases h

theorem addsOnly_readOperand {separated : Bool} {s : String}
    (h : st.readOperand v separated s = .ok st') : AddsOnly P st st' := by
  unfold readOperand at h
  split at h
  · split_ifs at h
  · cases hsettle : st.settle with
    | error e =>
      rw [hsettle] at h
      cases h
    | ok settled =>
      rw [hsettle] at h
      cases h
      -- the operands say nothing of options
      exact fun x hx => addsOnly_settle hsettle x hx
  · cases h

theorem addsOnly_readOperands {l : List String} (h : st.readOperands v l = .ok st') :
    AddsOnly P st st' := by
  induction l generalizing st with
  | nil =>
    cases h
    exact .refl P _
  | cons s l ih =>
    rw [readOperands] at h
    split at h
    · next after hafter => exact (addsOnly_readOperand hafter).trans (ih h)
    · cases h

/-- **An argument adds only options that it names.** -/
theorem addsOnly_readArgument {s : String} (h : st.readArgument v s = .ok st') :
    AddsOnly (NamesOption s) st st' := by
  unfold readArgument at h
  split at h
  · cases h
    exact .refl _ st
  · next name value hs =>
    refine (addsOnly_readLong h).mono ?_
    rintro o rfl
    exact .inl ⟨value, hs⟩
  · next l hs =>
    refine (addsOnly_readLetters h).mono ?_
    rintro o ⟨c, hc, ho⟩
    exact .inr ⟨l, c, hs, hc, ho⟩
  · split_ifs at h
    · cases h
      exact addsOnly_fill _
    · exact addsOnly_readOperand h

/-- Arguments add only options that one of them names; those behind a command are among them. -/
theorem addsOnly_read {args : List String} {command? : Option (CommandName × List String)}
    (h : st.read v args = .ok (st', command?)) :
    AddsOnly (fun o => ∃ s ∈ args, NamesOption s o) st st' ∧
      ∀ name rest, command? = some (name, rest) → rest ⊆ args := by
  induction args generalizing st with
  | nil =>
    cases h
    exact ⟨.refl _ _, fun _ _ hnone => by cases hnone⟩
  | cons s l ih =>
    rw [read] at h
    split at h
    · cases h
      refine ⟨.refl _ _, fun _ _ hsome => ?_⟩
      cases hsome
      exact List.subset_cons_self s l
    · split_ifs at h with hseparator
      · cases hoperands : st.readOperands v l with
        | error e =>
          rw [hoperands] at h
          cases h
        | ok after =>
          rw [hoperands] at h
          cases h
          exact ⟨addsOnly_readOperands hoperands, fun _ _ hnone => by cases hnone⟩
      · split at h
        · next after hafter =>
          obtain ⟨hadds, hrest⟩ := ih h
          refine ⟨((addsOnly_readArgument hafter).mono fun o ho => ?_).trans
            (hadds.mono ?_), fun name rest hsome => ?_⟩
          · exact ⟨s, List.mem_cons_self, ho⟩
          · rintro o ⟨s', hs', ho⟩
            exact ⟨s', List.mem_cons_of_mem s hs', ho⟩
          · exact List.subset_cons_of_subset s (hrest name rest hsome)
        · cases h

end LevelState

/-! ### Command lines -/

/-- The command line sets the option. -/
def Invocation.Uses (i : Invocation) : OptionName → Prop
  | .color => i.color ≠ none
  | .verbose => i.command.isVerbose = true
  | .force => i.command = .init true
  | .format =>
    match i.command with
    | .check options => options.format ≠ none
    | .list options => options.format ≠ none
    | .init _ => False
  | .config =>
    match i.command with
    | .check options => options.config ≠ none
    | .list options => options.config ≠ none
    | .init _ => False
  | .help => False
  | .version => False

namespace Invocation

/-- The options of a command were read behind its name. -/
theorem mentions_of_ofState {name : CommandName} {command : Command}
    {color : Option ColorChoice} (h : Command.ofState name st = .ok command)
    (huses : (Invocation.mk command color).Uses o) (hcolor : o ≠ .color) : st.Mentions o := by
  have hvalue : st.value? o ≠ none → st.Mentions o := by
    intro hne
    obtain ⟨value, hvalue⟩ := Option.ne_none_iff_exists'.mp hne
    exact LevelState.mentions_of_value? hvalue
  apply hvalue
  intro hnone
  unfold Command.ofState at h
  cases name <;> cases h <;> cases o <;> simp_all [Uses, Command.isVerbose]

theorem mentions_of_colorOf (h : colorOf st ≠ none) : st.Mentions .color := by
  unfold colorOf at h
  cases hvalue : st.value? .color with
  | none =>
    rw [hvalue] at h
    exact absurd rfl h
  | some value => exact LevelState.mentions_of_value? hvalue

/-- What stands behind the name of a command is read to its end, and then settled. -/
theorem exists_read_of_readCommand {name : CommandName} {args : List String} {command : Command}
    (h : readCommand name args = .ok (command, st)) :
    Command.ofState name st = .ok command ∧
      LevelState.AddsOnly (fun o => ∃ s ∈ args, NamesOption s o) {} st := by
  unfold readCommand at h
  split_ifs at h
  · cases h
  · obtain ⟨⟨read, command?⟩, hread, h⟩ := exists_of_bind_eq_ok h
    obtain ⟨settled, hsettle, h⟩ := exists_of_bind_eq_ok h
    obtain ⟨command', hcommand, h⟩ := exists_of_bind_eq_ok h
    cases h
    exact ⟨hcommand, (LevelState.addsOnly_read hread).1.trans (LevelState.addsOnly_settle hsettle)⟩

theorem not_mentions_empty (o : OptionName) : ¬LevelState.Mentions {} o := by
  rintro (⟨value, hmem⟩ | ⟨value, hpending⟩)
  · cases hmem
  · cases hpending

/-- **An option is set only if an argument names it.** -/
theorem exists_named_of_uses {args : List String} {i : Invocation}
    (h : ofArguments args = .ok i) (huses : i.Uses o) : ∃ s ∈ args, NamesOption s o := by
  obtain ⟨⟨above, command?⟩, habove, h⟩ := exists_of_bind_eq_ok h
  cases command? with
  | none =>
    obtain ⟨top, -, hthrow⟩ := exists_of_bind_eq_ok h
    cases hthrow
  | some r =>
    obtain ⟨name, rest⟩ := r
    obtain ⟨⟨command, behind⟩, hcommand, h⟩ := exists_of_bind_eq_ok h
    obtain ⟨top, hsettle, h⟩ := exists_of_bind_eq_ok h
    cases h
    obtain ⟨hstate, hbehind⟩ := exists_read_of_readCommand hcommand
    obtain ⟨hadds, hrest⟩ := LevelState.addsOnly_read habove
    have htop := hadds.trans (LevelState.addsOnly_settle hsettle)
    -- what is named behind the command is named in the whole line
    have hwhole : LevelState.AddsOnly (fun o => ∃ s ∈ args, NamesOption s o) {} behind :=
      hbehind.mono fun o ⟨s, hs, ho⟩ => ⟨s, hrest name rest rfl hs, ho⟩
    have hnamed : behind.Mentions o ∨ top.Mentions o → ∃ s ∈ args, NamesOption s o := by
      rintro (hmentions | hmentions)
      · exact (hwhole o hmentions).resolve_left (not_mentions_empty o)
      · exact (htop o hmentions).resolve_left (not_mentions_empty o)
    apply hnamed
    by_cases hcolor : o = .color
    · subst hcolor
      have hne : (colorOf behind).or (colorOf top) ≠ none := huses
      cases hnone : colorOf behind with
      | none =>
        rw [hnone, Option.none_or] at hne
        exact .inr (mentions_of_colorOf hne)
      | some choice => exact .inl (mentions_of_colorOf (by simp [hnone]))
    · exact .inl (mentions_of_ofState hstate huses hcolor)

example :
    (ofArguments ["check", "-vf", "jsonl"]).toOption.map (·.command.isVerbose) = some true := by
  rfl

end Invocation

/-! ### Runs -/

/-- The command without a wish for more output on the way. -/
def Command.quiet : Command → Command
  | check options => check { options with verbose := false }
  | list options => list options
  | init force => init force

/-- Nothing but the wish for more output is dropped. -/
theorem Command.quiet_eq_self_iff {command : Command} :
    command.quiet = command ↔ command.isVerbose = false := by
  cases command with
  | check options =>
    obtain ⟨paths, format, config, verbose⟩ := options
    simp [quiet, isVerbose, eq_comm]
  | list options => simp [quiet, isVerbose]
  | init force => simp [quiet, isVerbose]

namespace FileTree

variable {t : FileTree}

/-- A run replies the same, however much it tells on the way. -/
theorem execute_quiet (t : FileTree) (i : Invocation) :
    t.execute { i with command := i.command.quiet } = t.execute i := by
  obtain ⟨command, color⟩ := i
  cases command <;> rfl

/-- Command lines that differ in no more than how much is told have the same reply. -/
theorem execute_of_quiet_eq {i j : Invocation} (hcommand : i.command.quiet = j.command.quiet)
    (hcolor : i.color = j.color) : t.execute i = t.execute j := by
  rw [← execute_quiet t i, ← execute_quiet t j, hcommand, hcolor]

/-- **Without force a run leaves a configuration as it is**, and all else: where there is one, only
an argument that names `--force` can make a run change anything. -/
theorem run_of_not_forced {args : List String}
    (hhas : t.has ((Path.ofText ".").join (.ofText configFileName)) = true)
    (hforce : ∀ s ∈ args, ¬NamesOption s .force) : (t.run args).2 = t := by
  unfold run
  cases hread : Invocation.ofArguments args with
  | error e => rfl
  | ok i =>
    show (t.execute i).2 = t
    unfold execute
    cases hcommand : i.command with
    | check options => rfl
    | list options => rfl
    | init force =>
      cases force with
      | true =>
        obtain ⟨s, hs, hnames⟩ := Invocation.exists_named_of_uses (o := .force) hread hcommand
        exact absurd hnames (hforce s hs)
      | false =>
        show (t.initHere false).2 = t
        unfold initHere initIn
        simp only [hhas]
        rfl

end FileTree

end PlaybookPolicy
