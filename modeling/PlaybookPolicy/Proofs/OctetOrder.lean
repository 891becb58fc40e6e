import PlaybookPolicy.Text.Utf8

/-!
# The order of texts and of their octets

Texts are ordered character by character.  UTF-8 keeps this order: of two characters the smaller has
the smaller octets, and the first octet in which these differ decides, whatever stands behind it.
So the order of texts is the order of their octets as well.

## Main results

* `encodeChar_cases` — the octets of a character.
* `encodeChar_append_lt` — the octets of the smaller character come first, whatever stands behind
  them.
* `encode_lt_encode_iff`, `encode_le_encode_iff` — **texts are ordered as their octets are.**
-/

namespace PlaybookPolicy.Text.Utf8

/-- The octets of a character: its code in digits to the base 64, with marks that tell the first
octet and how many octets there are. -/
theorem encodeChar_cases (c : Char) :
    (c.val.toNat ≤ 0x7F ∧ String.utf8EncodeChar c = [.ofNat c.val.toNat]) ∨
    (0x7F < c.val.toNat ∧ c.val.toNat ≤ 0x7FF ∧ String.utf8EncodeChar c =
      [.ofNat (c.val.toNat / 64 % 32 + 0xC0), .ofNat (c.val.toNat % 64 + 0x80)]) ∨
    (0x7FF < c.val.toNat ∧ c.val.toNat ≤ 0xFFFF ∧ String.utf8EncodeChar c =
      [.ofNat (c.val.toNat / 4096 % 16 + 0xE0), .ofNat (c.val.toNat / 64 % 64 + 0x80),
        .ofNat (c.val.toNat % 64 + 0x80)]) ∨
    (0xFFFF < c.val.toNat ∧ c.val.toNat < 0x110000 ∧ String.utf8EncodeChar c =
      [.ofNat (c.val.toNat / 262144 % 8 + 0xF0), .ofNat (c.val.toNat / 4096 % 64 + 0x80),
        .ofNat (c.val.toNat / 64 % 64 + 0x80), .ofNat (c.val.toNat % 64 + 0x80)]) := by
  have hmax : c.val.toNat < 0x110000 := by
    have hvalid := c.valid
    simp only [UInt32.isValidChar, Nat.isValidChar] at hvalid
    omega
  unfold String.utf8EncodeChar
  by_cases hone : c.val.toNat ≤ 0x7F
  · exact .inl ⟨hone, if_pos hone⟩
  by_cases htwo : c.val.toNat ≤ 0x7FF
  · refine .inr (.inl ⟨by omega, htwo, ?_⟩)
    simp only [if_neg hone, if_pos htwo]
  by_cases hthree : c.val.toNat ≤ 0xFFFF
  · refine .inr (.inr (.inl ⟨by omega, hthree, ?_⟩))
    simp only [if_neg hone, if_neg htwo, if_pos hthree]
  · refine .inr (.inr (.inr ⟨by omega, hmax, ?_⟩))
    simp only [if_neg hone, if_neg htwo, if_neg hthree]

/-- The octets of the smaller character come first, whatever stands behind them. -/
theorem encodeChar_append_lt {c d : Char} (h : c < d) (l m : List UInt8) :
    String.utf8EncodeChar c ++ l < String.utf8EncodeChar d ++ m := by
  have hval : c.val.toNat < d.val.toNat := h
  -- a character with more octets has a greater first octet, and with as many the first digit that
  -- differs decides
  rcases encodeChar_cases c with ⟨hc, hcode⟩ | ⟨hc, hc', hcode⟩ | ⟨hc, hc', hcode⟩ |
      ⟨hc, hc', hcode⟩ <;>
    rcases encodeChar_cases d with ⟨hd, hcode'⟩ | ⟨hd, hd', hcode'⟩ | ⟨hd, hd', hcode'⟩ |
      ⟨hd, hd', hcode'⟩ <;>
    rw [hcode, hcode'] <;>
    simp only [List.cons_append, List.nil_append, List.cons_lt_cons_iff, UInt8.lt_iff_toNat_lt,
      ← UInt8.toNat_inj, UInt8.toNat_ofNat'] <;>
    simp (disch := omega) only [Nat.mod_eq_of_lt] <;>
    omega

/-- The smaller text has the smaller octets. -/
theorem flatMap_encodeChar_lt {l m : List Char} (h : l < m) :
    l.flatMap String.utf8EncodeChar < m.flatMap String.utf8EncodeChar := by
  induction l generalizing m with
  | nil =>
    cases m with
    | nil => exact absurd h (List.not_lt_nil [])
    | cons d m =>
      obtain ⟨b, r, hb⟩ := List.exists_cons_of_ne_nil (String.utf8EncodeChar_ne_nil (c := d))
      rw [List.flatMap_nil, List.flatMap_cons, hb]
      exact List.nil_lt_cons b _
  | cons c l ih =>
    cases m with
    | nil => exact absurd h (List.not_lt_nil _)
    | cons d m =>
      rw [List.flatMap_cons, List.flatMap_cons]
      rcases List.cons_lt_cons_iff.mp h with hlt | ⟨rfl, hlt⟩
      · exact encodeChar_append_lt hlt _ _
      · exact List.append_left_lt (ih hlt)

/-- **Texts are ordered as their octets are.** -/
theorem encode_lt_encode_iff {s t : String} : encode s < encode t ↔ s < t := by
  have hmono : ∀ {s t : String}, s < t → encode s < encode t := by
    intro s t h
    exact flatMap_encodeChar_lt (String.lt_iff.mp h)
  refine ⟨fun h => Decidable.byContradiction fun hnot => ?_, hmono⟩
  -- of two texts one is smaller unless they are equal, and then its octets are smaller as well
  have hle : t ≤ s := String.not_lt.mp hnot
  by_cases heq : s = t
  · exact List.lt_irrefl _ (heq ▸ h)
  · exact List.lt_asymm h (hmono (Std.lt_of_le_of_ne hle (Ne.symm heq)))

theorem encode_le_encode_iff {s t : String} : encode s ≤ encode t ↔ s ≤ t := by
  rw [← List.not_lt, ← String.not_lt, encode_lt_encode_iff]

end PlaybookPolicy.Text.Utf8
