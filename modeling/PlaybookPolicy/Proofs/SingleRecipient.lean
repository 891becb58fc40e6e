import Mathlib.Data.List.Nodup
import PlaybookPolicy.Proofs.MailRecipients

/-!
# Single recipients and lists of one

A recipient field may hold a single recipient or a list of them.  A list of one recipient says the
same as the recipient alone, whatever value it is: a text, a number, or a mapping or tagged value
that is written out.  Only a null under tags is different.  Alone it is a value like any other that
is no address, and is reported; but the items of a list are looked at through their tags to leave
out nulls, and so it is left out there.

## Main definitions

* `Yaml.Value.IsTaggedNull` — a null under tags.

## Main results

* `fieldRecipients_listed` — a field with a list of one value.
* `Task.exists_recipients_withArg` — what one field adds to the recipients of a task.
* `Task.recipients_listed_alone` — **a single recipient and a list of it are treated alike, unless
  it is a null under tags.**
* `Task.tagged_null_escapes` — a null under tags is reported alone, and passes in a list.
-/

namespace PlaybookPolicy

open Yaml (Value)

/-- The value is a null under tags. -/
def Yaml.Value.IsTaggedNull (v : Value) : Prop :=
  ∃ tag w, v = .tagged tag w ∧ w.isNull = true

variable {v : Value}

/-- What counts as null in a list is a null, or one under tags. -/
theorem Yaml.Value.isNull_iff : v.isNull = true ↔ v = .null ∨ v.IsTaggedNull := by
  cases v with
  | null => simp [isNull, untagged]
  | tagged tag w => simp [IsTaggedNull, isNull, untagged]
  | _ => simp [IsTaggedNull, isNull, untagged]

/-! ### Fields -/

theorem fieldRecipients_single (hlist : ∀ items, v ≠ .sequence items) (hnull : v ≠ .null) :
    fieldRecipients (some v) = [recipientText v] := by
  unfold fieldRecipients
  split
  · next h => cases h
  · next h =>
    cases h
    exact absurd rfl hnull
  · next items h =>
    cases h
    exact absurd rfl (hlist items)
  · next h =>
    cases h
    rfl

/-- A list of one value has its text as recipient, unless it is null under any tags. -/
theorem fieldRecipients_listed (v : Value) :
    fieldRecipients (some (.sequence [v])) = if v.isNull then [] else [recipientText v] := by
  rw [fieldRecipients, List.filter_singleton]
  cases v.isNull <;> rfl

theorem fieldRecipients_listed_alone (hlist : ∀ items, v ≠ .sequence items)
    (htag : ¬v.IsTaggedNull) :
    fieldRecipients (some (.sequence [v])) = fieldRecipients (some v) := by
  rw [fieldRecipients_listed]
  by_cases hnull : v = .null
  · subst hnull
    rfl
  · have hisNull : ¬v.isNull = true := by
      rw [Value.isNull_iff, not_or]
      exact ⟨hnull, htag⟩
    rw [if_neg hisNull, fieldRecipients_single hlist hnull]

/-! ### Tasks -/

namespace Task

variable {field : String}

theorem arg?_withArg (t : Task) (key : String) (v : Value) (key' : String) :
    (t.withArg key v).arg? key' = if key' = key then some v else t.arg? key' :=
  t.args.get?_insert key key' v

/-- **What one field adds to the recipients of a task** stands between what the fields before and
behind it add. -/
theorem exists_recipients_withArg (t : Task) (h : field ∈ recipientFields) :
    ∃ before after, ∀ v,
      (t.withArg field v).recipients = before ++ fieldRecipients (some v) ++ after := by
  obtain ⟨l, m, hfields⟩ := List.append_of_mem h
  have hnodup : recipientFields.Nodup := by decide
  rw [hfields, List.nodup_middle, List.nodup_cons, List.mem_append, not_or] at hnodup
  -- the other fields are not touched
  have hother : ∀ {fields : List String}, field ∉ fields → ∀ v,
      fields.flatMap (fun f => fieldRecipients ((t.withArg field v).arg? f)) =
        fields.flatMap fun f => fieldRecipients (t.arg? f) := by
    intro fields hfield v
    refine List.flatMap_congr fun f hf => ?_
    rw [arg?_withArg, if_neg]
    rintro rfl
    exact hfield hf
  refine ⟨l.flatMap fun f => fieldRecipients (t.arg? f),
    m.flatMap fun f => fieldRecipients (t.arg? f), fun v => ?_⟩
  rw [recipients, hfields, List.flatMap_append, List.flatMap_cons, hother hnodup.1.1,
    hother hnodup.1.2, arg?_withArg, if_pos rfl, List.append_assoc]

/-- Of two tasks with one module and the same recipients, the same is reported. -/
theorem reports_of_recipients {t t' : Task} (hmodule : t.moduleName = t'.moduleName)
    (h : t.recipients = t'.recipients) (a : AllowedDomains) :
    t.invalidRecipients a = t'.invalidRecipients a ∧
      t.recipientComplaint? a = t'.recipientComplaint? a := by
  have hinvalid : t.invalidRecipients a = t'.invalidRecipients a := by
    rw [invalidRecipients, invalidRecipients, hmodule, h]
  exact ⟨hinvalid, by rw [recipientComplaint?, recipientComplaint?, hinvalid]⟩

/-- **A single recipient and a list of it are treated alike, unless it is a null under tags.**  A
task has the same recipients, the same ones are reported, and in the same words, whether a field
holds a value that is no list or a list of that value alone.  A null under tags is among the
recipients if it stands alone, and then it is reported; it is not if it stands in a list. -/
theorem recipients_listed_alone (t : Task) (a : AllowedDomains) (hfield : field ∈ recipientFields)
    (hlist : ∀ items, v ≠ .sequence items) :
    let alone := t.withArg field v
    let listed := t.withArg field (.sequence [v])
    (¬v.IsTaggedNull → alone.recipients = listed.recipients ∧
      alone.invalidRecipients a = listed.invalidRecipients a ∧
        alone.recipientComplaint? a = listed.recipientComplaint? a) ∧
    (v.IsTaggedNull → (t.SendsMail → recipientText v ∈ alone.invalidRecipients a) ∧
      ∃ before after, alone.recipients = before ++ recipientText v :: after ∧
        listed.recipients = before ++ after) := by
  intro alone listed
  obtain ⟨before, after, hrecipients⟩ := t.exists_recipients_withArg hfield
  have halone : alone.recipients = before ++ fieldRecipients (some v) ++ after := hrecipients v
  have hlisted : listed.recipients = before ++ fieldRecipients (some (.sequence [v])) ++ after :=
    hrecipients (.sequence [v])
  constructor
  · intro htag
    have heq : alone.recipients = listed.recipients := by
      rw [halone, hlisted, fieldRecipients_listed_alone hlist htag]
    have hmodule : alone.moduleName = listed.moduleName := rfl
    exact ⟨heq, reports_of_recipients hmodule heq a⟩
  · intro htag
    obtain ⟨tag, w, rfl, hw⟩ := id htag
    rw [fieldRecipients_single hlist (by simp), List.append_assoc, List.singleton_append] at halone
    rw [fieldRecipients_listed, if_pos (Value.isNull_iff.mpr (.inr htag)), List.append_nil]
      at hlisted
    refine ⟨fun hmail => ?_, before, after, halone, hlisted⟩
    have hbad : a.allowsAddress (recipientText (.tagged tag w)) = false := by
      rw [AllowedDomains.allowsAddress, emailDomain?_recipientText (by simp)]
      rfl
    rw [invalidRecipients, (isMailModule_iff alone).mpr hmail, if_pos rfl, halone]
    simp [hbad]

/-- A task that sends mail to nobody yet. -/
def mailToNobody : Task where
  moduleName := "mail"

/-- An allowed address under a tag, which no rule lets pass. -/
def taggedAddress : Value :=
  .tagged "!x" (.text "ops@customer.com")

theorem recipients_listed_alone_taggedAddress :
    "cc" ∈ recipientFields ∧ (∀ items, taggedAddress ≠ .sequence items) ∧
      ¬taggedAddress.IsTaggedNull ∧
      (mailToNobody.withArg "cc" taggedAddress).invalidRecipients .builtin =
        (mailToNobody.withArg "cc" (.sequence [taggedAddress])).invalidRecipients .builtin ∧
      (mailToNobody.withArg "cc" taggedAddress).invalidRecipients .builtin =
        ["!x ops@customer.com"] := by
  have hfield : "cc" ∈ recipientFields := by decide
  have hlist : ∀ items, taggedAddress ≠ .sequence items := by simp [taggedAddress]
  have htag : ¬taggedAddress.IsTaggedNull := by
    simp [taggedAddress, Value.IsTaggedNull, Value.isNull, Value.untagged]
  have halike := (recipients_listed_alone mailToNobody .builtin hfield hlist).1 htag
  exact ⟨hfield, hlist, htag, halike.2.1, by decide +kernel⟩

/-- **A null under tags is reported alone, and passes in a list.**  So a recipient that fails closed
in one spelling escapes the rule in the other. -/
theorem tagged_null_escapes :
    ¬∀ (t : Task) (a : AllowedDomains) (field : String) (v : Value), t.SendsMail →
      field ∈ recipientFields → (∀ items, v ≠ .sequence items) →
        (t.withArg field v).recipients = (t.withArg field (.sequence [v])).recipients ∧
          (t.withArg field v).invalidRecipients a =
            (t.withArg field (.sequence [v])).invalidRecipients a ∧
            (t.withArg field v).recipientComplaint? a =
              (t.withArg field (.sequence [v])).recipientComplaint? a := by
  intro h
  have heq := (h mailToNobody .builtin "to" (.tagged "!x" .null) (by decide) (by decide)
    (by simp)).2.1
  revert heq
  decide +kernel

end Task

end PlaybookPolicy
