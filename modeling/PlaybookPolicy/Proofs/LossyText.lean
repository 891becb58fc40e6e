import PlaybookPolicy.Proofs.DecodedText

/-!
# ASCII characters of decoded octets

Octets that are no text are shown as far as they are.  A character beyond ASCII is written with
octets that are beyond ASCII as well, and the reader takes no longer form of a character that has a
shorter one.  So an ASCII character is shown only where its own octet stands.

## Main definitions

* `Text.Utf8.Partial.Wide` — a partial character is going to be one beyond ASCII.

## Main results

* `Text.Utf8.exists_mem_of_decodeLossy` — **an ASCII character is shown only where its octet
  stands.**
-/

namespace PlaybookPolicy

namespace Text.Utf8

/-- What octets behind a partial character complete is beyond ASCII. -/
structure Partial.Wide (p : Partial) : Prop where
  low_le : 0x80 ≤ p.low
  two_le : 2 ≤ p.bits * 64 + (p.low - 0x80)
  wide : p.owed ≤ 1 → 0x80 ≤ p.bits * 64 + (p.low - 0x80)

theorem toNat_ofNat_cases (n : Nat) : (Char.ofNat n).toNat = n ∨ (Char.ofNat n).toNat = 0 := by
  by_cases h : n.isValidChar
  · exact .inl (toNat_ofNat_of_isValidChar h)
  · right
    rw [Char.ofNat, dif_neg h]
    rfl

variable {c : Char} {b : Nat} {pending : Option Partial}

/-- A first octet is an ASCII character, or begins one that is beyond ASCII. -/
theorem wide_enter (b : Nat) : ∀ p ∈ (enter b).2, p.Wide := by
  intro p hp
  unfold enter at hp
  split_ifs at hp <;> simp only [Option.mem_def, Option.some.injEq, reduceCtorEq] at hp <;>
    subst hp <;> constructor <;> dsimp only <;> omega

theorem toNat_of_mem_enter (h : some c ∈ (enter b).1) : c.toNat = b ∨ c.toNat = 0 := by
  unfold enter at h
  split_ifs at h <;> simp at h
  subst h
  exact toNat_ofNat_cases b

theorem wide_step (hpending : ∀ p ∈ pending, p.Wide) (b : Nat) :
    ∀ p ∈ (step pending b).2, p.Wide := by
  intro p hp
  cases pending with
  | none => exact wide_enter b p hp
  | some q =>
    have hq := hpending q rfl
    have hlow := hq.low_le
    have htwo := hq.two_le
    simp only [step] at hp
    split_ifs at hp with hrange howed
    · cases hp
    · simp only [Option.mem_def, Option.some.injEq] at hp
      subst hp
      constructor <;> dsimp only <;> omega
    · exact wide_enter b p hp

/-- An ASCII character is read from its own octet. -/
theorem toNat_of_mem_step (hpending : ∀ p ∈ pending, p.Wide) (hc : 0 < c.toNat)
    (hascii : c.toNat < 0x80) (h : some c ∈ (step pending b).1) : c.toNat = b := by
  have henter : some c ∈ (enter b).1 → c.toNat = b := by
    intro h
    rcases toNat_of_mem_enter h with h | h
    · exact h
    · omega
  cases pending with
  | none => exact henter h
  | some q =>
    have hwide := (hpending q rfl).wide
    have hlow := (hpending q rfl).low_le
    simp only [step] at h
    split_ifs at h with hrange howed
    · -- the last octet of a character that is beyond ASCII
      simp only [List.mem_singleton, Option.some.injEq] at h
      have hge := hwide howed
      rcases toNat_ofNat_cases (q.bits * 64 + (b - 0x80)) with hn | hn <;> rw [← h] at hn <;> omega
    · cases h
    · exact henter (by simpa using h)

theorem exists_mem_of_decodeFrom {l : List UInt8} (hc : 0 < c.toNat) (hascii : c.toNat < 0x80)
    (hpending : ∀ p ∈ pending, p.Wide) (h : some c ∈ decodeFrom pending l) :
    ∃ b ∈ l, b.toNat = c.toNat := by
  induction l generalizing pending with
  | nil => cases pending <;> simp [decodeFrom] at h
  | cons b l ih =>
    rw [decodeFrom, List.mem_append] at h
    rcases h with h | h
    · exact ⟨b, List.mem_cons_self, (toNat_of_mem_step hpending hc hascii h).symm⟩
    · obtain ⟨b', hb', heq⟩ := ih (wide_step hpending b.toNat) h
      exact ⟨b', List.mem_cons_of_mem b hb', heq⟩

/-- **An ASCII character is shown only where its octet stands**, even if the octets are no text. -/
theorem exists_mem_of_decodeLossy {l : List UInt8} (hc : 0 < c.toNat) (hascii : c.toNat < 0x80)
    (h : c ∈ (decodeLossy l).toList) : ∃ b ∈ l, b.toNat = c.toNat := by
  rw [decodeLossy, String.toList_ofList, List.mem_map] at h
  obtain ⟨_ | c', hmem, rfl⟩ := h
  · simp at hascii
  · exact exists_mem_of_decodeFrom hc hascii (by simp) hmem

end Text.Utf8

end PlaybookPolicy
