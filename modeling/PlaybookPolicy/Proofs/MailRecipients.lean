import Mathlib.Data.List.TakeDrop
import Mathlib.Data.List.TakeWhile
import PlaybookPolicy.Proofs.Trimming
import PlaybookPolicy.Proofs.WrittenYaml
import PlaybookPolicy.Rule.Recipients

/-!
# The recipients rule fails closed

The rule turns every value of a recipient field into a text, and lets a text pass that is an address
in an allowed domain.  So it has to be shown that no value but a text can be written as an address:
numbers hold no at sign, and what is written of collections and tagged values holds a character that
is no part of any address.

## Main definitions

* `fieldValues`, `Task.recipientValues` — the values that a field and a task address.
* `AllowedDomains.Admits` — the value is a text that is an address in an allowed domain.

## Main results

* `isDomain_iff`, `emailDomain?_eq_some_iff` — the parts of a domain and of an address.
* `emailDomain?_recipientText` — **only texts are written as addresses.**
* `Task.invalidRecipients_eq` — the recipients that are reported, value by value.
* `Task.recipients_fail_closed` — **the rule reports every recipient that is not admitted, and
  nothing else.**
-/

namespace PlaybookPolicy

open Yaml (Value)

/-! ### Addresses -/

/-- **What is read as a domain**: domain characters, a point, and at least two letters. -/
theorem isDomain_iff {d : List Char} :
    isDomain d = true ↔ ∃ host top, d = host ++ '.' :: top ∧ host ≠ [] ∧
      (∀ c ∈ host, isDomainChar c = true) ∧ 2 ≤ top.length ∧ ∀ c ∈ top, c.isAlpha = true := by
  -- the domain is read from its end: the letters behind the last point, the point, and the rest
  rw [isDomain, List.span_eq_takeWhile_dropWhile]
  constructor
  · intro h
    have hd : d.reverse = d.reverse.takeWhile (· != '.') ++ d.reverse.dropWhile (· != '.') :=
      List.takeWhile_append_dropWhile.symm
    split at h
    · next top point rest hspan =>
      simp only [Prod.mk.injEq] at hspan
      obtain ⟨htop, hrest⟩ := hspan
      have hpoint := List.head_dropWhile_not (· != '.') (l := d.reverse) (by simp [hrest])
      simp only [hrest, List.head_cons, bne_eq_false_iff_eq] at hpoint
      rw [htop, hrest, hpoint, List.reverse_eq_iff] at hd
      simp only [Bool.and_eq_true, Bool.not_eq_true', List.all_eq_true, decide_eq_true_eq,
        List.isEmpty_eq_false_iff] at h
      obtain ⟨⟨⟨hlength, hletters⟩, hne⟩, hhost⟩ := h
      refine ⟨rest.reverse, top.reverse, ?_, ?_, ?_, ?_, ?_⟩
      · rw [hd, List.reverse_append, List.reverse_cons, List.append_assoc, List.singleton_append]
      · rwa [Ne, List.reverse_eq_nil_iff]
      · simpa only [List.mem_reverse] using hhost
      · rwa [List.length_reverse]
      · simpa only [List.mem_reverse] using hletters
    · cases h
  · rintro ⟨host, top, rfl, hne, hhost, hlength, hletters⟩
    -- no letter is a point, so the last point is the one before the letters
    have htop : ∀ c ∈ top.reverse, (c != '.') = true := by
      intro c hc
      rw [bne_iff_ne]
      rintro rfl
      exact absurd (hletters '.' (List.mem_reverse.mp hc)) (by decide)
    rw [List.reverse_append, List.reverse_cons, List.append_assoc, List.singleton_append,
      List.takeWhile_append_of_pos htop, List.dropWhile_append_of_pos htop,
      List.takeWhile_cons_of_neg (by decide), List.dropWhile_cons_of_neg (by decide),
      List.append_nil]
    simpa [hne, hlength] using And.intro hletters hhost

theorem isDomainChar_of_isDomain {d : List Char} (h : isDomain d = true) {c : Char} (hc : c ∈ d) :
    isDomainChar c = true := by
  obtain ⟨host, top, rfl, -, hhost, -, hletters⟩ := isDomain_iff.mp h
  rcases List.mem_append.mp hc with hc | hc
  · exact hhost c hc
  · rcases List.mem_cons.mp hc with rfl | hc
    · rfl
    · simp [isDomainChar, Char.isAlphanum, hletters c hc]

/-- **The parts of an address**: a name of local characters, the at sign, and a domain. -/
theorem emailDomain?_eq_some_iff {l d : List Char} :
    emailDomain? l = some d ↔ ∃ name, l = name ++ '@' :: d ∧ name ≠ [] ∧
      (∀ c ∈ name, isLocalChar c = true) ∧ isDomain d = true := by
  rw [emailDomain?, List.span_eq_takeWhile_dropWhile]
  constructor
  · intro h
    split at h
    · next name domain hspan =>
      simp only [Prod.mk.injEq] at hspan
      obtain ⟨hname, hdomain⟩ := hspan
      split at h
      · next hif =>
        cases h
        simp only [Bool.and_eq_true, Bool.not_eq_true', List.isEmpty_eq_false_iff] at hif
        refine ⟨name, ?_, hif.1, ?_, hif.2⟩
        · rw [← hname, ← hdomain, List.takeWhile_append_dropWhile]
        · intro c hc
          rw [← hname] at hc
          exact List.mem_takeWhile_imp hc
      · cases h
    · cases h
  · rintro ⟨name, rfl, hne, hname, hd⟩
    -- the at sign may not stand before itself, so the name ends there
    have hat : isLocalChar '@' = false := by decide
    rw [List.takeWhile_append_of_pos hname, List.dropWhile_append_of_pos hname,
      List.takeWhile_cons_of_neg (by simp [hat]), List.dropWhile_cons_of_neg (by simp [hat]),
      List.append_nil]
    simp [hne, hd]

/-- The character may stand in an address. -/
def isAddressChar (c : Char) : Bool :=
  isLocalChar c || c == '@'

theorem isAddressChar_of_emailDomain? {l d : List Char} (h : emailDomain? l = some d) :
    '@' ∈ l ∧ ∀ c ∈ l, isAddressChar c = true := by
  obtain ⟨name, rfl, -, hname, hd⟩ := emailDomain?_eq_some_iff.mp h
  refine ⟨by simp, ?_⟩
  intro c hc
  rw [List.mem_append, List.mem_cons] at hc
  rcases hc with hc | rfl | hc
  · simp [isAddressChar, hname c hc]
  · rfl
  · have hdomain := isDomainChar_of_isDomain hd hc
    simp only [isDomainChar, Bool.or_eq_true, beq_iff_eq] at hdomain
    simp only [isAddressChar, isLocalChar, Bool.or_eq_true, beq_iff_eq]
    tauto

theorem toNat_of_isAlphanum {c : Char} (h : c.isAlphanum = true) :
    48 ≤ c.toNat ∧ c.toNat ≤ 122 := by
  show 48 ≤ c.val.toNat ∧ c.val.toNat ≤ 122
  change ((decide ('A'.val ≤ c.val ∧ c.val ≤ 'Z'.val) ||
    decide ('a'.val ≤ c.val) && decide (c.val ≤ 'z'.val)) ||
    decide ('0'.val ≤ c.val) && decide (c.val ≤ '9'.val)) = true at h
  simp only [Bool.or_eq_true, Bool.and_eq_true, decide_eq_true_eq, UInt32.le_iff_toNat_le] at h
  obtain (⟨hlow, hhigh⟩ | ⟨hlow, hhigh⟩) | ⟨hlow, hhigh⟩ := h
  · exact ⟨le_trans (by decide) hlow, le_trans hhigh (by decide)⟩
  · exact ⟨le_trans (by decide) hlow, le_trans hhigh (by decide)⟩
  · exact ⟨le_trans (by decide) hlow, le_trans hhigh (by decide)⟩

/-- No address holds a blank. -/
theorem isBlank_of_isAddressChar {c : Char} (h : isAddressChar c = true) :
    Text.isBlank c = false := by
  simp only [isAddressChar, isLocalChar, Bool.or_eq_true, beq_iff_eq] at h
  obtain (((((h | rfl) | rfl) | rfl) | rfl) | rfl) | rfl := h
  · obtain ⟨hlow, hhigh⟩ := toNat_of_isAlphanum h
    simp only [Text.isBlank, Bool.or_eq_false_iff, Bool.and_eq_false_iff,
      decide_eq_false_iff_not, beq_eq_false_iff_ne]
    omega
  all_goals rfl

theorem emailDomain?_eq_none_of_mem {l : List Char} {c : Char} (hc : c ∈ l)
    (h : isAddressChar c = false) : emailDomain? l = none := by
  cases hd : emailDomain? l with
  | none => rfl
  | some d =>
    rw [(isAddressChar_of_emailDomain? hd).2 c hc] at h
    cases h

theorem emailDomain?_eq_none_of_not_mem {l : List Char} (h : '@' ∉ l) : emailDomain? l = none := by
  cases hd : emailDomain? l with
  | none => rfl
  | some d => exact absurd (isAddressChar_of_emailDomain? hd).1 h

/-! ### Values that are no texts -/

theorem emailDomain?_write? {v : Value} {s : String} (hs : Yaml.write? v = some s) {c : Char}
    (hc : c ∈ (Yaml.writeValue none false false none v {}).text) (hblank : Text.isBlank c = false)
    (h : isAddressChar c = false) : emailDomain? s.toList = none := by
  refine emailDomain?_eq_none_of_mem (c := c) ?_ h
  rw [Yaml.write?_eq_some hs]
  exact Text.mem_trim hblank (List.mem_reverse.mpr hc)

/-- A written sequence is no address: it begins with a bracket, or with a dash and a blank.  The
blank may be trimmed away, but then nothing is left behind the dash. -/
theorem emailDomain?_write?_sequence {items : List Value} {s : String}
    (hs : Yaml.write? (.sequence items) = some s) : emailDomain? s.toList = none := by
  cases items with
  | nil => exact emailDomain?_write? hs (c := '[') (by decide) (by decide) (by decide)
  | cons v vs =>
    obtain ⟨c, l, hc, hl⟩ := Yaml.reverse_writeValue_sequence v vs
    rw [Yaml.write?_eq_some hs, hl, Text.trim_cons (by decide), Text.trimEnd_cons]
    split
    · decide
    · refine emailDomain?_eq_none_of_mem (c := c) (by simp) ?_
      cases haddress : isAddressChar c with
      | false => rfl
      | true =>
        rw [isBlank_of_isAddressChar haddress] at hc
        cases hc

/-- **Only texts are written as addresses.** -/
theorem emailDomain?_recipientText {v : Value} (h : ∀ s, v ≠ .text s) :
    emailDomain? (recipientText v).toList = none := by
  -- what cannot be written has an empty text, and that is no address either
  have hwritten : (∀ s, Yaml.write? v = some s → emailDomain? s.toList = none) →
      emailDomain? ((Yaml.write? v).getD "").toList = none := by
    intro hw
    cases hs : Yaml.write? v with
    | none => decide
    | some s => exact hw s hs
  cases v with
  | text s => exact absurd rfl (h s)
  | null => exact hwritten fun s hs => by cases hs; decide
  | bool b => cases b <;> decide
  | int n =>
    refine emailDomain?_eq_none_of_not_mem ?_
    intro hat
    exact absurd (Yaml.mem_intText hat) (by decide)
  | float x =>
    refine emailDomain?_eq_none_of_not_mem ?_
    intro hat
    rcases FloatText.mem_write hat with hnumeral | hword | hword
    · exact absurd hnumeral (by decide)
    · exact absurd hword (by decide)
    · exact absurd hword (by decide)
  | sequence items => exact hwritten fun s hs => emailDomain?_write?_sequence hs
  | mapping entries =>
    refine hwritten ?_
    intro s hs
    obtain ⟨c, hc, hmem⟩ := Yaml.mem_writeValue_mapping entries
    rcases List.mem_pair.mp hc with rfl | rfl
    · exact emailDomain?_write? hs hmem (by decide) (by decide)
    · exact emailDomain?_write? hs hmem (by decide) (by decide)
  | tagged tag v =>
    refine hwritten ?_
    intro s hs
    refine emailDomain?_write? hs (c := '!') ?_ (by decide) (by decide)
    rw [Yaml.writeValue]
    exact Yaml.mem_writeValue_of_tag none false false tag v {}

/-! ### Allowed recipients -/

namespace AllowedDomains

/-- The value is a text that is an address, and its domain is on the list in whatever case its ASCII
letters are. -/
def Admits (a : AllowedDomains) (v : Value) : Prop :=
  ∃ s name domain, v = .text s ∧ s.toList = name ++ '@' :: domain ∧
    emailDomain? s.toList = some domain ∧
    ∃ d ∈ a.domains, d.toList.map Char.toLower = domain.map Char.toLower

theorem allows_iff {a : AllowedDomains} {domain : List Char} :
    a.allows (String.ofList domain) = true ↔
      ∃ d ∈ a.domains, d.toList.map Char.toLower = domain.map Char.toLower := by
  simp only [allows, Text.lowered, List.any_eq_true, beq_iff_eq, String.toList_ofList,
    String.ofList_inj]

theorem allowsAddress_iff {a : AllowedDomains} {s : String} :
    a.allowsAddress s = true ↔ a.Admits (.text s) := by
  rw [allowsAddress, Option.any_eq_true]
  constructor
  · rintro ⟨domain, hdomain, hallows⟩
    obtain ⟨name, hs, -⟩ := emailDomain?_eq_some_iff.mp hdomain
    exact ⟨s, name, domain, rfl, hs, hdomain, allows_iff.mp hallows⟩
  · rintro ⟨s', name, domain, hs', -, hdomain, hlisted⟩
    cases hs'
    exact ⟨domain, hdomain, allows_iff.mpr hlisted⟩

/-- A value passes as a text exactly if it is admitted. -/
theorem allowsAddress_recipientText {a : AllowedDomains} {v : Value} :
    a.allowsAddress (recipientText v) = true ↔ a.Admits v := by
  by_cases h : ∃ s, v = .text s
  · obtain ⟨s, rfl⟩ := h
    exact allowsAddress_iff
  · rw [not_exists] at h
    rw [allowsAddress, emailDomain?_recipientText h]
    constructor
    · intro hany
      cases hany
    · rintro ⟨s, -, -, hs, -⟩
      exact absurd hs (h s)

instance (a : AllowedDomains) : DecidablePred a.Admits :=
  fun _ => decidable_of_iff _ allowsAddress_recipientText

end AllowedDomains

/-- The values in a field: none if it is absent or null, each non-null item of a sequence, and any
other value by itself. -/
def fieldValues : Option Value → List Value
  | none => []
  | some .null => []
  | some (.sequence items) => items.filter fun v => !v.isNull
  | some v => [v]

theorem fieldRecipients_eq (field : Option Value) :
    fieldRecipients field = (fieldValues field).map recipientText := by
  rcases field with _ | v
  · rfl
  · cases v <;> rfl

namespace Task

/-- The values that a task addresses, field by field. -/
def recipientValues (t : Task) : List Value :=
  ["to", "cc", "bcc"].flatMap fun field => fieldValues (t.arg? field)

theorem recipients_eq (t : Task) : t.recipients = t.recipientValues.map recipientText := by
  rw [recipients, recipientValues, List.map_flatMap]
  simp only [fieldRecipients_eq]
  rfl

/-- The module is one of those that send mail. -/
def SendsMail (t : Task) : Prop :=
  t.moduleName = "mail" ∨ t.moduleName = "community.general.mail"

instance : DecidablePred SendsMail :=
  fun t => inferInstanceAs (Decidable (t.moduleName = "mail" ∨ _))

theorem isMailModule_iff (t : Task) : isMailModule t.moduleName = true ↔ t.SendsMail := by
  simp [isMailModule, mailModules, SendsMail]

/-- The recipients that are reported, value by value. -/
theorem invalidRecipients_eq (t : Task) (a : AllowedDomains) :
    t.invalidRecipients a = if t.SendsMail
      then (t.recipientValues.filter fun v => ¬a.Admits v).map recipientText else [] := by
  rw [invalidRecipients, recipients_eq, List.filter_map]
  simp only [isMailModule_iff]
  congr 2
  refine List.filter_congr ?_
  intro v _
  simp [← AllowedDomains.allowsAddress_recipientText]

/-- **The rule fails closed.**  In a task that sends mail it reports, in field order, every value
that is not admitted, each as the text it is written as, and so every value that is no text; the
complaint lists them behind a fixed beginning.  A task that sends no mail passes. -/
theorem recipients_fail_closed : ∀ (t : Task) (a : AllowedDomains),
    t.invalidRecipients a = (if t.SendsMail
      then (t.recipientValues.filter fun v => ¬a.Admits v).map recipientText else []) ∧
    (t.SendsMail → ∀ v ∈ t.recipientValues, (∀ s, v ≠ .text s) →
      recipientText v ∈ t.invalidRecipients a) ∧
    t.recipientComplaint? a = if t.invalidRecipients a = [] then none
      else some ("Email recipients must use an allowed domain" ++ ": " ++
        ", ".intercalate (t.invalidRecipients a)) := by
  intro t a
  have hvalues := invalidRecipients_eq t a
  refine ⟨hvalues, ?_, ?_⟩
  · intro hmail v hv hno
    rw [hvalues, if_pos hmail]
    refine List.mem_map_of_mem (List.mem_filter.mpr ⟨hv, ?_⟩)
    rw [decide_eq_true_iff]
    rintro ⟨s, -, -, hs, -⟩
    exact hno s hs
  · rw [recipientComplaint?]
    simp only [List.isEmpty_iff]
    rfl

example : invalidRecipients
    { moduleName := "mail"
      args := TextMap.insert (TextMap.insert ∅ "to" (.text "ops@Customer.com")) "bcc"
        (.sequence [.null, .int 7, .tagged "!x" (.text "ops@customer.com")]) }
    .builtin = ["7", "!x ops@customer.com"] := by decide +kernel

end Task

end PlaybookPolicy
