import PlaybookPolicy.Proofs.FreeFormWords
import PlaybookPolicy.Proofs.MapEntries
import PlaybookPolicy.Proofs.MappingOrder

/-!
# The spellings of a task

A task names its module by a key, or as the value of `action` or `local_action`.  Beside the module
stand entries whose keys are keywords, and they mean the same in every form.  What is left is to see
that an action value gives the module and the arguments that the module key gives: a mapping with
its `module` entry aside, and a text behind the blank that ends the module.

## Main definitions

* `Task.Keywords` — entries that may stand beside a module.
* `Task.WriteOne` — entries that write one and the same task beside given keywords.

## Main results

* `Task.ofMapping_module`, `Task.ofMapping_action` — a task with a module key, and one with an
  action.
* `Action.ofValue?_text_of_trim`, `Arguments.union_erase_module` — the two forms of an action.
* `Task.writeOne_spellings` — **the spellings of a task write one task.**
-/

namespace PlaybookPolicy

open Yaml (Value Mapping)

/-! ### Actions -/

namespace Text

/-- Of a word with more behind it, only the end of that is trimmed. -/
theorem trim_append_of_word {w : List Char} (hne : w ≠ []) (hw : ∀ c ∈ w, isBlank c = false)
    (l : List Char) : trim (w ++ l) = w ++ trimEnd l := by
  obtain ⟨c, r, rfl⟩ := List.exists_cons_of_ne_nil hne
  rw [List.forall_mem_cons] at hw
  have hend : trimEnd r = r := by
    apply trimEnd_eq_self
    intro d hd
    exact hw.2 d (List.mem_of_getLast? hd)
  rw [List.cons_append, trim_cons hw.1, trimEnd_append, hend, List.cons_append]
  split
  · next hl => rw [List.isEmpty_iff.mp hl, List.append_nil]
  · rfl

end Text

/-- An action text begins with the module, which ends at the first blank. -/
theorem Action.ofValue?_text_of_trim {s : String} {w l : List Char}
    (hs : Text.trim s.toList = w ++ l) (hne : w ≠ []) (hw : ∀ c ∈ w, Text.isBlank c = false)
    (hl : ∀ c ∈ l.head?, Text.isBlank c = true) :
    Action.ofValue? (.text s) =
      some ⟨String.ofList w, FreeForm.parse (String.ofList (l.drop 1))⟩ := by
  have hname : (w ++ l).takeWhile (fun c => !Text.isBlank c) = w := by
    have hstop : l.takeWhile (fun c => !Text.isBlank c) = [] := by
      cases l with
      | nil => rfl
      | cons c r =>
        rw [List.takeWhile_cons_of_neg]
        simp [hl c rfl]
    rw [List.takeWhile_append_of_pos, hstop, List.append_nil]
    intro c hc
    simp [hw c hc]
  have hempty : w.isEmpty = false := by
    rw [List.isEmpty_eq_false_iff]
    exact hne
  simp only [ofValue?, hs, hname, hempty, List.drop_left, Bool.false_eq_true, if_false]

theorem Action.ofValue?_text_of_word {s : String} {w l : List Char} (hs : s.toList = w ++ l)
    (hne : w ≠ []) (hw : ∀ c ∈ w, Text.isBlank c = false)
    (hl : ∀ c ∈ (Text.trimEnd l).head?, Text.isBlank c = true) :
    Action.ofValue? (.text s) =
      some ⟨String.ofList w, FreeForm.parse (String.ofList ((Text.trimEnd l).drop 1))⟩ := by
  refine ofValue?_text_of_trim ?_ hne hw hl
  rw [hs, Text.trim_append_of_word hne hw]

/-- A blank and a text behind a module give the arguments that the text gives without its end. -/
theorem Action.ofValue?_text_append {name s : String} (hne : name ≠ "")
    (hname : ∀ c ∈ name.toList, Text.isBlank c = false) :
    Action.ofValue? (.text (name ++ " " ++ s)) =
      some ⟨name, FreeForm.parse (String.ofList (Text.trimEnd s.toList))⟩ := by
  have hlist : name.toList ≠ [] := fun h => hne (String.toList_eq_nil_iff.mp h)
  have hchars : (name ++ " " ++ s).toList = name.toList ++ ' ' :: s.toList := by
    simp [String.toList_append]
  have hend : Text.trimEnd (' ' :: s.toList) =
      if (Text.trimEnd s.toList).isEmpty then [] else ' ' :: Text.trimEnd s.toList := by
    rw [Text.trimEnd_cons]
    have hblank : Text.isBlank ' ' = true := by decide
    rw [hblank, Bool.and_true]
  rw [ofValue?_text_of_word hchars hlist hname, String.ofList_toList, hend]
  -- of a blank text nothing is left, and neither is the blank that stands before it
  · split
    · next h => rw [List.isEmpty_iff.mp h, List.drop_nil]
    · rfl
  · rw [hend]
    intro c hc
    split at hc
    · cases hc
    · cases hc
      decide

/-- A module by itself has no arguments. -/
theorem Action.ofValue?_text {name : String} (hne : name ≠ "")
    (hname : ∀ c ∈ name.toList, Text.isBlank c = false) :
    Action.ofValue? (.text name) = some ⟨name, ∅⟩ := by
  have hlist : name.toList ≠ [] := fun h => hne (String.toList_eq_nil_iff.mp h)
  rw [ofValue?_text_of_word (List.append_nil _).symm hlist hname (fun c hc => by cases hc),
    String.ofList_toList]
  rfl

namespace Arguments

theorem textEntries_append_cons (a b : Mapping) (key : String) (v : Value) :
    textEntries (a ++ (.text key, v) :: b) = textEntries a ++ (key, v) :: textEntries b := by
  unfold textEntries
  rw [List.filterMap_append, List.filterMap_cons_some]
  rfl

theorem lookup_reverse_textEntries {a : Mapping} {key : String}
    (h : ∀ e ∈ a, e.1.asText? ≠ some key) : (textEntries a).reverse.lookup key = none := by
  rw [List.lookup_eq_none_iff]
  intro e he
  obtain ⟨⟨k, v⟩, hmem, hk⟩ := List.mem_filterMap.mp (List.mem_reverse.mp he)
  obtain ⟨key', hkey', rfl⟩ := Option.map_eq_some_iff.mp hk
  rw [bne_iff_ne]
  intro heq
  apply h (k, v) hmem
  rw [heq]
  exact hkey'

/-- An action mapping without its `module` entry gives the arguments that the rest of it gives. -/
theorem union_erase_module (args : Arguments) (a b : Mapping) (name : Value)
    (h : ∀ e ∈ a ++ b, e.1.asText? ≠ some "module") :
    args.union (TextMap.erase (insertMapping ∅ (a ++ (.text "module", name) :: b)) "module")
      = args.insertMapping (a ++ b) := by
  apply TextMap.ext_get?
  intro k
  unfold insertMapping
  rw [get?_union, TextMap.get?_erase, TextMap.get?_insertAll, TextMap.get?_insertAll,
    TextMap.get?_empty, Option.or_none]
  by_cases hk : k = "module"
  · rw [if_pos hk, Option.none_or, hk, lookup_reverse_textEntries h, Option.none_or]
  · have hsplit : textEntries (a ++ b) = textEntries a ++ textEntries b := List.filterMap_append
    rw [if_neg hk, textEntries_append_cons, hsplit, List.reverse_append, List.reverse_append,
      List.reverse_cons, List.append_assoc, List.singleton_append,
      TextMap.lookup_append_cons_of_ne hk]

end Arguments

/-! ### Tasks -/

namespace Task

/-- Entries that may stand beside the module of a task: no key reads as anything but a keyword, and
none is an action. -/
structure Keywords (K : Mapping) : Prop where
  distinct : Mapping.distinctKeys K = true
  keyword : ∀ e ∈ K, ∀ key, e.1.asText? = some key → isTaskKeyword key = true
  action : ∀ e ∈ K, e.1.isText "action" = false
  localAction : ∀ e ∈ K, e.1.isText "local_action" = false

section Entries

variable {K M : Mapping} {key : String} {v : Value}

/-- One entry more, anywhere among the keywords, does not hide what stands there. -/
theorem get?_of_perm (hK : Keywords K) (hkey : ∀ e ∈ K, e.1.isText key = false)
    (hM : M.Perm ((.text key, v) :: K)) {key' : String} (hne : key' ≠ key) :
    Mapping.get? M key' = Mapping.get? K key' := by
  rw [Mapping.get?_eq_of_perm hM (Mapping.distinctKeys_cons_text hkey hK.distinct),
    Mapping.get?_cons_of_ne hne]

theorem get?_self_of_perm (hK : Keywords K) (hkey : ∀ e ∈ K, e.1.isText key = false)
    (hM : M.Perm ((.text key, v) :: K)) : Mapping.get? M key = some v := by
  rw [Mapping.get?_eq_of_perm hM (Mapping.distinctKeys_cons_text hkey hK.distinct),
    Mapping.get?_cons_self]

/-- **A task with a module key** has the arguments that stand there. -/
theorem ofMapping_module (hK : Keywords K) (hname : isTaskKeyword key = false)
    (hM : M.Perm ((.text key, v) :: K)) :
    ofMapping M = .ok { moduleName := key, args := inlineArgs (explicitArgs K) v,
                        name := nameOf K } := by
  have hkey : ∀ e ∈ K, e.1.isText key = false := by
    intro e he
    rw [Bool.eq_false_iff]
    intro htext
    rw [hK.keyword e he key (Yaml.Value.asText?_of_isText htext)] at hname
    cases hname
  have hne : ∀ key', isTaskKeyword key' = true → key' ≠ key := by
    intro key' hkey' heq
    rw [heq, hname] at hkey'
    cases hkey'
  have haction : actionValue? M = none := by
    unfold actionValue?
    rw [get?_of_perm hK hkey hM (hne "action" (by decide)),
      get?_of_perm hK hkey hM (hne "local_action" (by decide)),
      Mapping.get?_eq_none hK.action, Mapping.get?_eq_none hK.localAction]
  -- no other key reads as anything but a keyword, so the module is found wherever it stands
  have hmodule : moduleEntry? M = some (key, v) := by
    unfold moduleEntry?
    refine findSome?_eq_of_perm_cons hM ?_ ?_
    · show (if isTaskKeyword key then none else some (key, v)) = some (key, v)
      rw [hname]
      rfl
    · intro e he
      obtain ⟨k, w⟩ := e
      dsimp only
      cases hk : k.asText? with
      | none => rfl
      | some key' => exact if_pos (hK.keyword (k, w) he key' hk)
  have hargs : explicitArgs M = explicitArgs K := by
    unfold explicitArgs
    rw [get?_of_perm hK hkey hM (hne "args" (by decide))]
  have hnameOf : nameOf M = nameOf K := by
    unfold nameOf
    rw [get?_of_perm hK hkey hM (hne "name" (by decide))]
  unfold ofMapping
  rw [haction, hmodule, hargs, hnameOf]

/-- **A task with an action** has the module and the arguments of the action. -/
theorem ofMapping_action (hK : Keywords K) (hkey : key = "action" ∨ key = "local_action")
    {action : Action} (hv : Action.ofValue? v = some action)
    (hM : M.Perm ((.text key, v) :: K)) :
    ofMapping M = .ok { moduleName := action.moduleName,
                        args := (explicitArgs K).union action.args, name := nameOf K } := by
  have hfree : ∀ e ∈ K, e.1.isText key = false := by
    rcases hkey with rfl | rfl
    · exact hK.action
    · exact hK.localAction
  have haction : actionValue? M = some v := by
    unfold actionValue?
    rcases hkey with rfl | rfl
    · rw [get?_self_of_perm hK hfree hM]
    · rw [get?_of_perm hK hfree hM (by decide), Mapping.get?_eq_none hK.action,
        get?_self_of_perm hK hfree hM]
  have hother : ∀ key', key' ≠ "action" → key' ≠ "local_action" →
      Mapping.get? M key' = Mapping.get? K key' := by
    intro key' haction hlocal
    apply get?_of_perm hK hfree hM
    rcases hkey with rfl | rfl
    · exact haction
    · exact hlocal
  have hargs : explicitArgs M = explicitArgs K := by
    unfold explicitArgs
    rw [hother "args" (by decide) (by decide)]
  have hnameOf : nameOf M = nameOf K := by
    unfold nameOf
    rw [hother "name" (by decide) (by decide)]
  unfold ofMapping
  rw [haction, hargs, hnameOf]
  simp only [hv]

end Entries

/-! ### Spellings -/

/-- The entries all write one task of the module, each beside the same keywords and anywhere among
them. -/
def WriteOne (K : Mapping) (moduleName : String) (spellings : List (String × Value)) : Prop :=
  ∃ t : Task, t.moduleName = moduleName ∧ t.name = nameOf K ∧
    ∀ e ∈ spellings, ∀ M : Mapping, M.Perm ((.text e.1, e.2) :: K) → ofMapping M = .ok t

/-- A module key and the two action keys write one task if the action has the module and gives the
arguments that stand at the module key. -/
theorem writeOne_of_ofValue? {K : Mapping} (hK : Keywords K) {name : String}
    (hname : isTaskKeyword name = false) {v w : Value} {args : Arguments}
    (hw : Action.ofValue? w = some ⟨name, args⟩)
    (hargs : inlineArgs (explicitArgs K) v = (explicitArgs K).union args) :
    WriteOne K name [(name, v), ("action", w), ("local_action", w)] := by
  refine ⟨{ moduleName := name, args := (explicitArgs K).union args, name := nameOf K }, rfl, rfl,
    ?_⟩
  intro e he M hM
  simp only [List.mem_cons, List.not_mem_nil, or_false] at he
  rcases he with rfl | rfl | rfl
  · rw [ofMapping_module hK hname hM, hargs]
  · exact ofMapping_action hK (.inl rfl) hw hM
  · exact ofMapping_action hK (.inr rfl) hw hM

/-- **The spellings of a task write one task.**  The arguments of a module may be a mapping, a text
or missing; they may stand at the key of the module, or with the module in an action or a local
action. -/
theorem writeOne_spellings {name : String} (hne : name ≠ "")
    (hblank : ∀ c ∈ name.toList, Text.isBlank c = false) (hname : isTaskKeyword name = false)
    {K : Mapping} (hK : Keywords K) :
    (∀ a b : Mapping, (∀ e ∈ a ++ b, e.1.asText? ≠ some "module") →
      WriteOne K name [(name, .mapping (a ++ b)),
        ("action", .mapping (a ++ (.text "module", .text name) :: b)),
        ("local_action", .mapping (a ++ (.text "module", .text name) :: b))]) ∧
    (∀ s : String, (∀ c, s.toList.getLast? = some c → Text.isBlank c = false) ∨
        FreeForm.quoteAfter none s.toList = none →
      WriteOne K name [(name, .text s), ("action", .text (name ++ " " ++ s)),
        ("local_action", .text (name ++ " " ++ s))]) ∧
    WriteOne K name [(name, .null), ("action", .text name), ("local_action", .text name)] := by
  refine ⟨?_, ?_, ?_⟩
  · intro a b hab
    have hmodule : Mapping.get? (a ++ (.text "module", .text name) :: b) "module"
        = some (.text name) := by
      apply Mapping.get?_append_cons_self
      intro e he
      rw [Bool.eq_false_iff]
      intro htext
      exact hab e (List.mem_append_left b he) (Value.asText?_of_isText htext)
    have hvalue : Action.ofValue? (.mapping (a ++ (.text "module", .text name) :: b)) =
        some ⟨name, TextMap.erase
          (Arguments.insertMapping ∅ (a ++ (.text "module", .text name) :: b)) "module"⟩ := by
      simp only [Action.ofValue?, hmodule]
      rfl
    apply writeOne_of_ofValue? hK hname hvalue
    exact (Arguments.union_erase_module _ a b _ hab).symm
  · intro s hs
    apply writeOne_of_ofValue? hK hname (Action.ofValue?_text_append hne hblank)
    rw [FreeForm.parse_trimEnd hs]
    rfl
  · apply writeOne_of_ofValue? hK hname (Action.ofValue?_text hne hblank)
    rfl

/-- A name, a loop, and arguments apart from the module. -/
def notifyEntries : Mapping :=
  [(.text "name", .text "Notify"), (.text "with_items", .sequence [.int 1]),
    (.text "args", .mapping [(.text "cc", .text "ops@customer.com"), (.text "to", .null)])]

theorem keywords_notifyEntries : Keywords notifyEntries where
  distinct := by decide +kernel
  keyword := by
    intro e he key hkey
    simp only [notifyEntries, List.mem_cons, List.not_mem_nil, or_false] at he
    rcases he with rfl | rfl | rfl <;> (cases hkey; decide)
  action := by decide
  localAction := by decide

theorem writeOne_spellings_notify :
    Keywords notifyEntries ∧ isTaskKeyword "mail" = false ∧
      FreeForm.quoteAfter none "to=a@evil.org subject=\"it's  done\" \t".toList = none ∧
      WriteOne notifyEntries "mail"
        [("mail", .mapping [(.text "to", .text "a@evil.org")]),
          ("action", .mapping [(.text "module", .text "mail"), (.text "to", .text "a@evil.org")]),
          ("local_action", .mapping [(.text "module", .text "mail"),
            (.text "to", .text "a@evil.org")])] ∧
      WriteOne notifyEntries "mail"
        [("mail", .text "to=a@evil.org subject=\"it's  done\" \t"),
          ("action", .text ("mail" ++ " " ++ "to=a@evil.org subject=\"it's  done\" \t")),
          ("local_action", .text ("mail" ++ " " ++ "to=a@evil.org subject=\"it's  done\" \t"))] ∧
      WriteOne notifyEntries "mail"
        [("mail", .null), ("action", .text "mail"), ("local_action", .text "mail")] := by
  have hname : isTaskKeyword "mail" = false := by decide
  have hclosed :
      FreeForm.quoteAfter none "to=a@evil.org subject=\"it's  done\" \t".toList = none := by
    decide
  have hblank : ∀ c ∈ "mail".toList, Text.isBlank c = false := by
    have hall : "mail".toList.all (fun c => !Text.isBlank c) = true := by decide
    intro c hc
    exact (Bool.not_eq_true' _).mp (List.all_eq_true.mp hall c hc)
  obtain ⟨hmapping, htext, hnull⟩ :=
    @writeOne_spellings "mail" (by decide) hblank hname _ keywords_notifyEntries
  refine ⟨keywords_notifyEntries, hname, hclosed, ?_, htext _ (.inr hclosed), hnull⟩
  exact hmapping [] [(.text "to", .text "a@evil.org")] (by simp [Value.asText?, Value.untagged])

end Task

end PlaybookPolicy
