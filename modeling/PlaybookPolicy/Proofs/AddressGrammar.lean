import Mathlib.Data.List.DropRight
import PlaybookPolicy.Proofs.MailRecipients

/-!
# The grammar of addresses

An address is a name, an at sign, a host, a point and a top-level domain; the domain of the address
is all that stands behind the at sign.  Points may stand in the host as well, so a text could be cut
at several of them, but no point stands in the top-level domain: the last point is the one that
counts, and a text is an address in one way at most.

## Main definitions

* `IsAsciiLetter`, `IsAsciiDigit` — letters and digits of ASCII.
* `IsAddress` — a text is an address with the given parts.

## Main results

* `isDomain_iff` — what is read as a domain.
* `IsAddress.parts_eq` — an address has one name, one host and one top-level domain.
* `emailDomain?_exact` — **addresses are read exactly as the grammar says.**
-/

namespace PlaybookPolicy

/-! ### Characters -/

/-- A letter of ASCII. -/
def IsAsciiLetter (c : Char) : Prop :=
  'a' ≤ c ∧ c ≤ 'z' ∨ 'A' ≤ c ∧ c ≤ 'Z'

/-- A digit of ASCII. -/
def IsAsciiDigit (c : Char) : Prop :=
  '0' ≤ c ∧ c ≤ '9'

instance : DecidablePred IsAsciiLetter :=
  fun c => inferInstanceAs (Decidable ('a' ≤ c ∧ c ≤ 'z' ∨ 'A' ≤ c ∧ c ≤ 'Z'))

instance : DecidablePred IsAsciiDigit :=
  fun c => inferInstanceAs (Decidable ('0' ≤ c ∧ c ≤ '9'))

theorem isAlpha_iff {c : Char} : c.isAlpha = true ↔ IsAsciiLetter c := by
  have hsmall : c.isLower = true ↔ 'a' ≤ c ∧ c ≤ 'z' := by
    change (decide ('a' ≤ c) && decide (c ≤ 'z')) = true ↔ _
    rw [Bool.and_eq_true, decide_eq_true_iff, decide_eq_true_iff]
  have hcapital : c.isUpper = true ↔ 'A' ≤ c ∧ c ≤ 'Z' := by
    change decide ('A' ≤ c ∧ c ≤ 'Z') = true ↔ _
    rw [decide_eq_true_iff]
  change (c.isUpper || c.isLower) = true ↔ _
  rw [Bool.or_eq_true, hsmall, hcapital]
  exact or_comm

theorem isAlphanum_iff {c : Char} : c.isAlphanum = true ↔ IsAsciiLetter c ∨ IsAsciiDigit c := by
  rw [Char.isAlphanum, Bool.or_eq_true, isAlpha_iff, Char.isDigit]
  simp only [Bool.and_eq_true, decide_eq_true_eq]
  rfl

theorem isLocalChar_iff {c : Char} :
    isLocalChar c = true ↔ IsAsciiLetter c ∨ IsAsciiDigit c ∨ c ∈ ['.', '_', '%', '+', '-'] := by
  simp [isLocalChar, isAlphanum_iff, or_assoc]

theorem isDomainChar_iff {c : Char} :
    isDomainChar c = true ↔ IsAsciiLetter c ∨ IsAsciiDigit c ∨ c ∈ ['.', '-'] := by
  simp [isDomainChar, isAlphanum_iff, or_assoc]

/-! ### Addresses and their parts -/

/-- The text is an address: the name, an at sign, the host, a point and the top-level domain. -/
structure IsAddress (text name host top : List Char) : Prop where
  /-- The parts in their order, with the signs between them. -/
  text_eq : text = name ++ '@' :: (host ++ '.' :: top)
  /-- There is a name. -/
  name_ne_nil : name ≠ []
  /-- The name holds letters, digits and some signs. -/
  name_chars : ∀ c ∈ name, IsAsciiLetter c ∨ IsAsciiDigit c ∨ c ∈ ['.', '_', '%', '+', '-']
  /-- There is a host. -/
  host_ne_nil : host ≠ []
  /-- The host holds letters, digits, points and hyphens. -/
  host_chars : ∀ c ∈ host, IsAsciiLetter c ∨ IsAsciiDigit c ∨ c ∈ ['.', '-']
  /-- The top-level domain has two letters or more. -/
  two_le_length_top : 2 ≤ top.length
  /-- The top-level domain holds letters. -/
  top_chars : ∀ c ∈ top, IsAsciiLetter c

theorem emailDomain?_eq_some_iff_isAddress {text d : List Char} :
    emailDomain? text = some d ↔
      ∃ name host top, IsAddress text name host top ∧ d = host ++ '.' :: top := by
  simp only [emailDomain?_eq_some_iff, isDomain_iff, isLocalChar_iff, isDomainChar_iff, isAlpha_iff]
  constructor
  · rintro ⟨name, rfl, hname, hnames, host, top, rfl, hhost, hhosts, hlength, hletters⟩
    exact ⟨name, host, top, ⟨rfl, hname, hnames, hhost, hhosts, hlength, hletters⟩, rfl⟩
  · rintro ⟨name, host, top, ⟨rfl, hname, hnames, hhost, hhosts, hlength, hletters⟩, rfl⟩
    exact ⟨name, rfl, hname, hnames, host, top, rfl, hhost, hhosts, hlength, hletters⟩

namespace IsAddress

variable {text name host top name' host' top' : List Char}

/-- The only at sign is the one between the name and the domain. -/
theorem at_notMem (h : IsAddress text name host top) : '@' ∉ name ∧ '@' ∉ host ++ '.' :: top := by
  have hletter : ¬IsAsciiLetter '@' := by decide
  have hdigit : ¬IsAsciiDigit '@' := by decide
  constructor
  · intro hat
    rcases h.name_chars '@' hat with hc | hc | hc
    · exact hletter hc
    · exact hdigit hc
    · exact absurd hc (by decide)
  · intro hat
    rcases List.mem_append.mp hat with hat | hat
    · rcases h.host_chars '@' hat with hc | hc | hc
      · exact hletter hc
      · exact hdigit hc
      · exact absurd hc (by decide)
    · rcases List.mem_cons.mp hat with hc | hat
      · exact absurd hc (by decide)
      · exact hletter (h.top_chars '@' hat)

/-- The top-level domain is what stands behind the last point. -/
theorem rtakeWhile_eq_top (h : IsAddress text name host top) :
    (host ++ '.' :: top).rtakeWhile (· != '.') = top := by
  have htop : ∀ c ∈ top.reverse, (c != '.') = true := by
    intro c hc
    rw [bne_iff_ne]
    rintro rfl
    exact absurd (h.top_chars '.' (List.mem_reverse.mp hc)) (by decide)
  rw [List.rtakeWhile, List.reverse_append, List.reverse_cons, List.append_assoc,
    List.singleton_append, List.takeWhile_append_of_pos htop,
    List.takeWhile_cons_of_neg (by decide), List.append_nil, List.reverse_reverse]

/-- **An address has one name, one host and one top-level domain.** -/
theorem parts_eq (h : IsAddress text name host top) (h' : IsAddress text name' host' top') :
    name = name' ∧ host = host' ∧ top = top' := by
  have htext : name ++ '@' :: (host ++ '.' :: top) = name' ++ '@' :: (host' ++ '.' :: top') :=
    h.text_eq.symm.trans h'.text_eq
  obtain ⟨hname, -, hdomain⟩ :=
    (List.append_cons_inj_of_notMem h.at_notMem.1 h.at_notMem.2).mp htext
  have htop : top = top' := by
    rw [← h.rtakeWhile_eq_top, hdomain, h'.rtakeWhile_eq_top]
  rw [htop] at hdomain
  exact ⟨hname, List.append_cancel_right hdomain, htop⟩

/-- There is one at sign in an address. -/
theorem count_at (h : IsAddress text name host top) : text.count '@' = 1 := by
  rw [h.text_eq, List.count_append, List.count_cons_self, List.count_eq_zero.mpr h.at_notMem.1,
    List.count_eq_zero.mpr h.at_notMem.2]

end IsAddress

/-- A character of an address is one of ASCII, and neither a blank nor a comma. -/
theorem ascii_of_isAddressChar {c : Char} (h : isAddressChar c = true) :
    Text.isBlank c = false ∧ c ≠ ',' ∧ c.toNat < 128 := by
  refine ⟨isBlank_of_isAddressChar h, ?_, ?_⟩
  · rintro rfl
    exact absurd h (by decide)
  · simp only [isAddressChar, isLocalChar, Bool.or_eq_true, beq_iff_eq] at h
    obtain (((((h | rfl) | rfl) | rfl) | rfl) | rfl) | rfl := h
    · have hle := (toNat_of_isAlphanum h).2
      omega
    all_goals decide

/-- **Addresses are read exactly as the grammar says.**  A text is read as an address if it has the
parts of one, which it has in one way at most, and the domain that is read is all that stands behind
its only at sign.  So a text with a blank, a comma, a character outside ASCII or a second at sign
anywhere in it is no address. -/
theorem emailDomain?_exact (s : String) :
    (∀ d, emailDomain? s.toList = some d ↔
      ∃ name host top, IsAddress s.toList name host top ∧ d = host ++ '.' :: top) ∧
    (∀ name host top name' host' top', IsAddress s.toList name host top →
      IsAddress s.toList name' host' top' → name = name' ∧ host = host' ∧ top = top') ∧
    (∀ d, emailDomain? s.toList = some d →
      ∃ name, s.toList = name ++ '@' :: d ∧ '@' ∉ name ∧ '@' ∉ d) ∧
    ((∃ c ∈ s.toList, Text.isBlank c = true ∨ c = ',' ∨ 128 ≤ c.toNat) ∨ 2 ≤ s.toList.count '@' →
      emailDomain? s.toList = none) := by
  refine ⟨fun d => emailDomain?_eq_some_iff_isAddress, fun _ _ _ _ _ _ => IsAddress.parts_eq,
    ?_, ?_⟩
  · intro d hd
    obtain ⟨name, host, top, h, rfl⟩ := emailDomain?_eq_some_iff_isAddress.mp hd
    exact ⟨name, h.text_eq, h.at_notMem⟩
  · rintro (⟨c, hc, hforeign⟩ | hcount)
    · refine emailDomain?_eq_none_of_mem hc ?_
      rw [Bool.eq_false_iff]
      intro haddress
      obtain ⟨hblank, hcomma, hascii⟩ := ascii_of_isAddressChar haddress
      rcases hforeign with hforeign | hforeign | hforeign
      · rw [hblank] at hforeign
        cases hforeign
      · exact hcomma hforeign
      · omega
    · cases hd : emailDomain? s.toList with
      | none => rfl
      | some d =>
        obtain ⟨name, host, top, h, -⟩ := emailDomain?_eq_some_iff_isAddress.mp hd
        have hone := h.count_at
        omega

/-- A tagged address whose host has points of its own, and the same with a line feed behind it. -/
theorem emailDomain?_exact_tagged :
    emailDomain? "first.last+tag@cust.com.au".toList = some "cust.com.au".toList ∧
      emailDomain? "first.last+tag@cust.com.au\n".toList = none :=
  ⟨((emailDomain?_exact _).1 _).mpr ⟨"first.last+tag".toList, "cust.com".toList, "au".toList,
      { text_eq := rfl
        name_ne_nil := by decide
        name_chars := fun c hc => isLocalChar_iff.mp (List.all_eq_true.mp (by decide) c hc)
        host_ne_nil := by decide
        host_chars := fun c hc => isDomainChar_iff.mp (List.all_eq_true.mp (by decide) c hc)
        two_le_length_top := by decide
        top_chars := fun c hc => isAlpha_iff.mp (List.all_eq_true.mp (by decide) c hc) }, rfl⟩,
    (emailDomain?_exact _).2.2.2 (.inl ⟨'\n', by decide, .inl rfl⟩)⟩

end PlaybookPolicy
