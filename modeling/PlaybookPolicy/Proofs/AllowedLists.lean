import PlaybookPolicy.Proofs.ListOptions
import PlaybookPolicy.Proofs.MailRecipients
import PlaybookPolicy.Rule.Basic

/-!
# Lists of allowed domains are sets

Of a list of allowed domains it counts which domains are on it, and nothing else: neither their
order, nor repetitions, nor blanks around them, nor the case of their letters.  With more domains on
the list a task has fewer recipients to report, and those that are left stay in their order.  Only a
list without any text in it is different, since the built-in domains stand in for it.

## Main definitions

* `AllowedDomains.CoveredBy` — the domains of one list are among those of another.

## Main results

* `AllowedDomains.mem_domains_ofList_iff` — the domains of a list.
* `Task.invalidRecipients_sublist` — more domains leave fewer recipients to report.
* `Task.reports_of_coveredBy` — **allowed lists act as sets, and monotonically.**
-/

namespace PlaybookPolicy

namespace AllowedDomains

/-- Each entry of the list that is not blank is also on the other one, but for outer blanks and the
case of ASCII letters. -/
def CoveredBy (l m : List String) : Prop :=
  ∀ a ∈ l, Text.trimmed a ≠ "" →
    ∃ b ∈ m, Text.lowered (Text.trimmed b) = Text.lowered (Text.trimmed a)

instance : DecidableRel CoveredBy :=
  fun l m => inferInstanceAs (Decidable (∀ a ∈ l, Text.trimmed a ≠ "" →
    ∃ b ∈ m, Text.lowered (Text.trimmed b) = Text.lowered (Text.trimmed a)))

variable {a b : AllowedDomains} {l m : List String}

theorem lowered_trimmed_eq_empty_iff {s : String} :
    Text.lowered (Text.trimmed s) = "" ↔ Text.trimmed s = "" :=
  ListOption.allowedEmailDomains.normal_eq_empty_iff

/-- The domains of a list with some text in it are its entries that are not blank, trimmed and in
small letters. -/
theorem mem_domains_ofList_iff (hl : ∃ s ∈ l, Text.trimmed s ≠ "") {d : String} :
    d ∈ (ofList l).domains ↔
      ∃ s ∈ l, Text.trimmed s ≠ "" ∧ Text.lowered (Text.trimmed s) = d := by
  have hmem : ∀ d, d ∈ Text.cleaned (fun s => Text.lowered (Text.trimmed s)) l ↔
      ∃ s ∈ l, Text.trimmed s ≠ "" ∧ Text.lowered (Text.trimmed s) = d := by
    intro d
    rw [Text.mem_cleaned]
    constructor
    · rintro ⟨⟨s, hs, rfl⟩, hne⟩
      exact ⟨s, hs, mt lowered_trimmed_eq_empty_iff.mpr hne, rfl⟩
    · rintro ⟨s, hs, hne, rfl⟩
      exact ⟨⟨s, hs, rfl⟩, mt lowered_trimmed_eq_empty_iff.mp hne⟩
  -- an entry is left, so the built-in domains do not stand in
  obtain ⟨s, hs, hne⟩ := hl
  have hleft := List.ne_nil_of_mem ((hmem _).mpr ⟨s, hs, hne, rfl⟩)
  rw [ofList, if_neg (by simpa using hleft)]
  exact hmem d

namespace CoveredBy

theorem exists_of_mem (h : CoveredBy l m) {s : String} (hs : s ∈ l) (hne : Text.trimmed s ≠ "") :
    ∃ b ∈ m, Text.trimmed b ≠ "" ∧
      Text.lowered (Text.trimmed b) = Text.lowered (Text.trimmed s) := by
  obtain ⟨b, hb, heq⟩ := h s hs hne
  refine ⟨b, hb, ?_, heq⟩
  rwa [Ne, ← lowered_trimmed_eq_empty_iff, heq, lowered_trimmed_eq_empty_iff]

/-- What covers a list with some text in it has some text in it as well. -/
theorem exists_ne_empty (h : CoveredBy l m) (hl : ∃ s ∈ l, Text.trimmed s ≠ "") :
    ∃ s ∈ m, Text.trimmed s ≠ "" := by
  obtain ⟨s, hs, hne⟩ := hl
  obtain ⟨b, hb, hb', -⟩ := h.exists_of_mem hs hne
  exact ⟨b, hb, hb'⟩

theorem domains_subset (h : CoveredBy l m) (hl : ∃ s ∈ l, Text.trimmed s ≠ "") :
    (ofList l).domains ⊆ (ofList m).domains := by
  intro d hd
  obtain ⟨s, hs, hne, rfl⟩ := (mem_domains_ofList_iff hl).mp hd
  exact (mem_domains_ofList_iff (h.exists_ne_empty hl)).mpr (h.exists_of_mem hs hne)

end CoveredBy

/-- An address in one of the domains is in one of more domains. -/
theorem allowsAddress_of_subset (h : a.domains ⊆ b.domains) {s : String}
    (hs : a.allowsAddress s = true) : b.allowsAddress s = true := by
  obtain ⟨_, name, domain, htext, haddress, hdomain, d, hd, heq⟩ := allowsAddress_iff.mp hs
  exact allowsAddress_iff.mpr ⟨_, name, domain, htext, haddress, hdomain, d, h hd, heq⟩

end AllowedDomains

namespace Task

open AllowedDomains

variable {a b : AllowedDomains} {l m : List String}

/-- **More domains leave fewer recipients to report**, in the same order. -/
theorem invalidRecipients_sublist (t : Task) (h : a.domains ⊆ b.domains) :
    (t.invalidRecipients b).Sublist (t.invalidRecipients a) := by
  unfold invalidRecipients
  split
  · refine List.monotone_filter_right _ fun s hs => ?_
    rw [Bool.not_eq_true'] at hs ⊢
    rw [Bool.eq_false_iff] at hs ⊢
    exact fun ha => hs (allowsAddress_of_subset h ha)
  · exact List.Sublist.refl _

theorem invalidRecipients_congr (t : Task) (h : a.domains ⊆ b.domains)
    (h' : b.domains ⊆ a.domains) : t.invalidRecipients b = t.invalidRecipients a :=
  (t.invalidRecipients_sublist h).antisymm (t.invalidRecipients_sublist h')

theorem recipientComplaint?_eq_none_iff {t : Task} :
    t.recipientComplaint? a = none ↔ t.invalidRecipients a = [] := by
  simp [recipientComplaint?]

/-- **Allowed lists act as sets, and monotonically.**  If the domains of a list with some text in it
are among those of another list, then a task has fewer recipients to report with the other one, all
of them in the same order, and no finding that it does not have with the first.  If this holds the
other way round as well, then what is reported is the same, word for word.  So it makes no
difference in which order a list is, what is repeated in it, and what blanks and which case its
entries have. -/
theorem reports_of_coveredBy (t : Task) (hl : ∃ s ∈ l, Text.trimmed s ≠ "")
    (h : CoveredBy l m) :
    (t.invalidRecipients (.ofList m)).Sublist (t.invalidRecipients (.ofList l)) ∧
    (∀ severity file,
      ({ check := .recipients (.ofList l), severity } : Rule).taskFindings file t = [] →
        ({ check := .recipients (.ofList m), severity } : Rule).taskFindings file t = []) ∧
    (CoveredBy m l →
      t.invalidRecipients (.ofList m) = t.invalidRecipients (.ofList l) ∧
      t.recipientComplaint? (.ofList m) = t.recipientComplaint? (.ofList l) ∧
      ∀ severity file,
        ({ check := .recipients (.ofList m), severity } : Rule).taskFindings file t =
          ({ check := .recipients (.ofList l), severity } : Rule).taskFindings file t) := by
  have hsublist := t.invalidRecipients_sublist (h.domains_subset hl)
  refine ⟨hsublist, ?_, ?_⟩
  · intro severity file hnone
    simp only [Rule.taskFindings, Rule.taskComplaint?, List.map_eq_nil_iff,
      Option.toList_eq_nil_iff, recipientComplaint?_eq_none_iff] at hnone ⊢
    rw [hnone] at hsublist
    exact List.sublist_nil.mp hsublist
  · intro h'
    have hinvalid := t.invalidRecipients_congr (h.domains_subset hl)
      (h'.domains_subset (h.exists_ne_empty hl))
    have hcomplaint :
        t.recipientComplaint? (.ofList m) = t.recipientComplaint? (.ofList l) := by
      rw [recipientComplaint?, recipientComplaint?, hinvalid]
    refine ⟨hinvalid, hcomplaint, fun severity file => ?_⟩
    simp only [Rule.taskFindings, Rule.taskComplaint?, hcomplaint]
    rfl

/-- A task that mails a company, a customer and somebody else. -/
def mailToThree : Task where
  moduleName := "mail"
  args := TextMap.insert (TextMap.insert ∅ "to" (.text "ops@Corp.example")) "cc"
    (.sequence [.text "x@evil.org", .text "a@customer.com"])

theorem reports_of_coveredBy_mailToThree :
    CoveredBy [" CORP.Example ", ""] ["customer.com", "corp.example", "Corp.Example"] ∧
      mailToThree.invalidRecipients (.ofList [" CORP.Example ", ""])
        = ["x@evil.org", "a@customer.com"] ∧
      (mailToThree.invalidRecipients
        (.ofList ["customer.com", "corp.example", "Corp.Example"])).Sublist
          (mailToThree.invalidRecipients (.ofList [" CORP.Example ", ""])) := by
  have hcovered :
      CoveredBy [" CORP.Example ", ""] ["customer.com", "corp.example", "Corp.Example"] := by
    decide +kernel
  exact ⟨hcovered, by decide +kernel,
    (mailToThree.reports_of_coveredBy (by decide +kernel) hcovered).1⟩

end Task

end PlaybookPolicy
