import Mathlib.Data.List.Basic
import Mathlib.Tactic.SplitIfs
import PlaybookPolicy.Text.Utf8

/-!
# Octets that decode to a text

The reader of UTF-8 refuses every octet sequence but the one that writes the characters it reads: a
character of several octets has only the form with the fewest, and surrogates have none.  So a text
that octets decode to determines the octets.

## Main definitions

* `bitsWith` — the number that octets behind a partial character complete.
* `Recodes` — faultless octets are those of the characters they decode to.

## Main results

* `mapM_eq_some_iff` — a list that is gone through to its end.
* `exists_of_decodeFrom_some` — how a partial character is completed.
* `recodes` — all octets have this property.
* `encode_of_decode?` — **octets that decode to a text are the octets of the text.**
-/

namespace PlaybookPolicy

/-- Going through a list succeeds with the results of its elements, if they all have one. -/
theorem mapM_eq_some_iff {α β : Type} {f : α → Option β} :
    ∀ {l : List α} {r : List β}, l.mapM f = some r ↔ l.map f = r.map some := by
  intro l
  induction l with
  | nil =>
    intro r
    cases r <;> simp
  | cons a l ih =>
    intro r
    rw [List.mapM_cons]
    cases ha : f a with
    | none => cases r <;> simp [ha]
    | some b =>
      cases r with
      | nil => cases l.mapM f <;> simp
      | cons c r =>
        rw [List.map_cons, List.map_cons, List.cons.injEq, ← ih, ha]
        cases l.mapM f <;> simp

/-- Each element has a result, if and only if the list has one. -/
theorem exists_map_some_iff {α β : Type} {f : α → Option β} {l : List α} :
    (∃ r : List β, l.map f = r.map some) ↔ ∀ a ∈ l, ∃ b, f a = some b := by
  constructor
  · rintro ⟨r, hr⟩ a ha
    have hmem : f a ∈ r.map some := hr ▸ List.mem_map_of_mem ha
    obtain ⟨b, -, hb⟩ := List.mem_map.mp hmem
    exact ⟨b, hb.symm⟩
  · intro h
    induction l with
    | nil => exact ⟨[], rfl⟩
    | cons a l ih =>
      rw [List.forall_mem_cons] at h
      obtain ⟨⟨b, hb⟩, hl⟩ := h
      obtain ⟨r, hr⟩ := ih hl
      refine ⟨b :: r, ?_⟩
      rw [List.map_cons, List.map_cons, hb, hr]

namespace Text.Utf8

/-! ### Partial characters -/

/-- The number that octets behind a partial character complete. -/
def bitsWith (bits : Nat) (l : List UInt8) : Nat :=
  l.foldl (fun n b => n * 64 + (b.toNat - 0x80)) bits

theorem bitsWith_cons (bits : Nat) (b : UInt8) (l : List UInt8) :
    bitsWith bits (b :: l) = bitsWith (bits * 64 + (b.toNat - 0x80)) l := by
  rw [bitsWith, bitsWith, List.foldl_cons]

/-- **How a partial character is completed.**  If no fault follows, the owed octets do, the first of
them in the range that the character asks for and the others in the common range; and they write its
number. -/
theorem exists_of_decodeFrom_some : ∀ {n : Nat} {p : Partial} {l : List UInt8} {cs : List Char},
    p.owed = n + 1 → decodeFrom (some p) l = cs.map some →
      ∃ b m r ds, l = b :: (m ++ r) ∧ m.length = n ∧ p.low ≤ b.toNat ∧ b.toNat ≤ p.high ∧
        (∀ c ∈ m, 0x80 ≤ c.toNat ∧ c.toNat ≤ 0xBF) ∧
        cs = Char.ofNat (bitsWith p.bits (b :: m)) :: ds ∧ decodeFrom none r = ds.map some := by
  intro n
  induction n with
  | zero =>
    intro p l cs howed h
    cases l with
    | nil => cases cs <;> simp [decodeFrom] at h
    | cons b r =>
      simp only [decodeFrom, step] at h
      split at h
      · next hb =>
        rw [if_pos (by omega)] at h
        cases cs with
        | nil => simp at h
        | cons c ds =>
          simp only [List.cons_append, List.nil_append, List.map_cons, List.cons.injEq,
            Option.some.injEq] at h
          exact ⟨b, [], r, ds, rfl, rfl, hb.1, hb.2, by simp, by rw [← h.1]; rfl, h.2⟩
      · cases cs <;> simp at h
  | succ n ih =>
    intro p l cs howed h
    cases l with
    | nil => cases cs <;> simp [decodeFrom] at h
    | cons b r =>
      simp only [decodeFrom, step] at h
      split at h
      · next hb =>
        -- one octet less is owed, and all that follow may be in the common range
        rw [if_neg (by omega), List.nil_append] at h
        obtain ⟨c, m, r', ds, rfl, hm, hlow, hhigh, hall, hcs, hr'⟩ :=
          ih (Nat.sub_eq_of_eq_add howed) h
        refine ⟨b, c :: m, r', ds, rfl, by simp [hm], hb.1, hb.2, ?_, ?_, hr'⟩
        · rw [List.forall_mem_cons]
          exact ⟨⟨hlow, hhigh⟩, hall⟩
        · rw [bitsWith_cons]
          exact hcs
      · cases cs <;> simp at h

/-! ### The octets of a character -/

theorem toNat_ofNat_of_isValidChar {n : Nat} (h : n.isValidChar) :
    (Char.ofNat n).val.toNat = n := by
  rw [Char.ofNat, dif_pos h]
  rfl

theorem utf8EncodeChar_one {b : UInt8} (hb : b.toNat < 0x80) :
    String.utf8EncodeChar (Char.ofNat b.toNat) = [b] := by
  have hvalid : b.toNat.isValidChar := .inl (by omega)
  have hval := toNat_ofNat_of_isValidChar hvalid
  rw [String.utf8EncodeChar]
  simp only [hval]
  rw [if_pos (by omega), UInt8.ofNat_toNat]

theorem utf8EncodeChar_two {b c : UInt8} (hb : 0xC2 ≤ b.toNat ∧ b.toNat ≤ 0xDF)
    (hc : 0x80 ≤ c.toNat ∧ c.toNat ≤ 0xBF) :
    String.utf8EncodeChar (Char.ofNat (bitsWith (b.toNat - 0xC0) [c])) = [b, c] := by
  have hsum : bitsWith (b.toNat - 0xC0) [c] = (b.toNat - 0xC0) * 64 + (c.toNat - 0x80) := rfl
  have hvalid : (bitsWith (b.toNat - 0xC0) [c]).isValidChar := .inl (by omega)
  have hval := toNat_ofNat_of_isValidChar hvalid
  rw [String.utf8EncodeChar]
  simp only [hval]
  rw [if_neg (by omega), if_pos (by omega)]
  simp only [List.cons.injEq, and_true, ← UInt8.toNat_inj, UInt8.toNat_ofNat']
  omega

/-- Behind the least first octet comes no overlong form, and behind `0xED` no surrogate. -/
theorem utf8EncodeChar_three {bits : Nat} {b c d : UInt8} (hb : b.toNat = 0xE0 + bits)
    (hbits : bits < 16) (hc : 0x80 ≤ c.toNat ∧ c.toNat ≤ 0xBF)
    (hd : 0x80 ≤ d.toNat ∧ d.toNat ≤ 0xBF)
    (hlow : bits = 0 → 0xA0 ≤ c.toNat) (hhigh : bits = 0xD → c.toNat ≤ 0x9F) :
    String.utf8EncodeChar (Char.ofNat (bitsWith bits [c, d])) = [b, c, d] := by
  have hsum : bitsWith bits [c, d] = (bits * 64 + (c.toNat - 0x80)) * 64 + (d.toNat - 0x80) := rfl
  have hvalid : (bitsWith bits [c, d]).isValidChar := by
    unfold Nat.isValidChar
    omega
  have hval := toNat_ofNat_of_isValidChar hvalid
  rw [String.utf8EncodeChar]
  simp only [hval]
  rw [if_neg (by omega), if_neg (by omega), if_pos (by omega)]
  simp only [List.cons.injEq, and_true, ← UInt8.toNat_inj, UInt8.toNat_ofNat']
  omega

/-- Behind the least first octet comes no overlong form, and behind the greatest nothing beyond the
last character. -/
theorem utf8EncodeChar_four {bits : Nat} {b c d e : UInt8} (hb : b.toNat = 0xF0 + bits)
    (hbits : bits < 5) (hc : 0x80 ≤ c.toNat ∧ c.toNat ≤ 0xBF)
    (hd : 0x80 ≤ d.toNat ∧ d.toNat ≤ 0xBF) (he : 0x80 ≤ e.toNat ∧ e.toNat ≤ 0xBF)
    (hlow : bits = 0 → 0x90 ≤ c.toNat) (hhigh : bits = 4 → c.toNat ≤ 0x8F) :
    String.utf8EncodeChar (Char.ofNat (bitsWith bits [c, d, e])) = [b, c, d, e] := by
  have hsum : bitsWith bits [c, d, e] =
    ((bits * 64 + (c.toNat - 0x80)) * 64 + (d.toNat - 0x80)) * 64 + (e.toNat - 0x80) := rfl
  have hvalid : (bitsWith bits [c, d, e]).isValidChar := by
    unfold Nat.isValidChar
    omega
  have hval := toNat_ofNat_of_isValidChar hvalid
  rw [String.utf8EncodeChar]
  simp only [hval]
  rw [if_neg (by omega), if_neg (by omega), if_neg (by omega)]
  simp only [List.cons.injEq, and_true, ← UInt8.toNat_inj, UInt8.toNat_ofNat']
  omega

/-! ### Octet sequences -/

/-- If the octets decode without a fault, then they are those of the characters they decode to. -/
def Recodes (l : List UInt8) : Prop :=
  ∀ cs : List Char, decodeFrom none l = cs.map some → cs.flatMap String.utf8EncodeChar = l

/-- A first octet that leaves a partial character, if all octets that may complete it are encoded as
they were read. -/
theorem flatMap_of_pending {b : UInt8} {p : Partial} {l : List UInt8} {cs : List Char} {n : Nat}
    (howed : p.owed = n + 1) (ih : ∀ r : List UInt8, r.length ≤ l.length → Recodes r)
    (hchar : ∀ c m, m.length = n → p.low ≤ c.toNat → c.toNat ≤ p.high →
      (∀ d ∈ m, 0x80 ≤ d.toNat ∧ d.toNat ≤ 0xBF) →
      String.utf8EncodeChar (Char.ofNat (bitsWith p.bits (c :: m))) = b :: c :: m)
    (h : decodeFrom (some p) l = cs.map some) : cs.flatMap String.utf8EncodeChar = b :: l := by
  obtain ⟨c, m, r, ds, rfl, hm, hlow, hhigh, hall, rfl, hr⟩ := exists_of_decodeFrom_some howed h
  have hlen : r.length ≤ (c :: (m ++ r)).length := by
    rw [List.length_cons, List.length_append]
    omega
  have hds : ds.flatMap String.utf8EncodeChar = r := ih r hlen ds hr
  rw [List.flatMap_cons, hchar c m hm hlow hhigh hall, hds]
  rfl

theorem flatMap_of_pending_two {b : UInt8} {l : List UInt8} {cs : List Char}
    (hb : 0xC2 ≤ b.toNat ∧ b.toNat ≤ 0xDF)
    (ih : ∀ r : List UInt8, r.length ≤ l.length → Recodes r)
    (h : decodeFrom (some ⟨b.toNat - 0xC0, 1, 0x80, 0xBF⟩) l = cs.map some) :
    cs.flatMap String.utf8EncodeChar = b :: l := by
  refine flatMap_of_pending rfl ih ?_ h
  intro c m hm hlow hhigh _
  obtain rfl := List.eq_nil_of_length_eq_zero hm
  exact utf8EncodeChar_two hb ⟨hlow, hhigh⟩

theorem flatMap_of_pending_three {b : UInt8} {bits low high : Nat} {l : List UInt8}
    {cs : List Char} (hb : b.toNat = 0xE0 + bits) (hbits : bits < 16)
    (hrange : 0x80 ≤ low ∧ high ≤ 0xBF)
    (hlow : bits = 0 → 0xA0 ≤ low) (hhigh : bits = 0xD → high ≤ 0x9F)
    (ih : ∀ r : List UInt8, r.length ≤ l.length → Recodes r)
    (h : decodeFrom (some ⟨bits, 2, low, high⟩) l = cs.map some) :
    cs.flatMap String.utf8EncodeChar = b :: l := by
  refine flatMap_of_pending rfl ih ?_ h
  intro c m hm hc hc' hall
  obtain ⟨d, rfl⟩ := List.length_eq_one_iff.mp hm
  have hd := hall d (by simp)
  simp only at hc hc'
  refine utf8EncodeChar_three hb hbits (by omega) hd ?_ ?_
  · intro h0
    exact Nat.le_trans (hlow h0) hc
  · intro h0
    exact Nat.le_trans hc' (hhigh h0)

theorem flatMap_of_pending_four {b : UInt8} {bits low high : Nat} {l : List UInt8}
    {cs : List Char} (hb : b.toNat = 0xF0 + bits) (hbits : bits < 5)
    (hrange : 0x80 ≤ low ∧ high ≤ 0xBF)
    (hlow : bits = 0 → 0x90 ≤ low) (hhigh : bits = 4 → high ≤ 0x8F)
    (ih : ∀ r : List UInt8, r.length ≤ l.length → Recodes r)
    (h : decodeFrom (some ⟨bits, 3, low, high⟩) l = cs.map some) :
    cs.flatMap String.utf8EncodeChar = b :: l := by
  refine flatMap_of_pending rfl ih ?_ h
  intro c m hm hc hc' hall
  obtain ⟨d, e, rfl⟩ := List.length_eq_two.mp hm
  have hd := hall d (by simp)
  have he := hall e (by simp)
  simp only at hc hc'
  refine utf8EncodeChar_four hb hbits (by omega) hd he ?_ ?_
  · intro h0
    exact Nat.le_trans (hlow h0) hc
  · intro h0
    exact Nat.le_trans hc' (hhigh h0)

/-- One octet and what follows it, if all shorter sequences have the property. -/
theorem recodes_cons {b : UInt8} {l : List UInt8}
    (ih : ∀ r : List UInt8, r.length ≤ l.length → Recodes r) : Recodes (b :: l) := by
  intro cs h
  have hb := b.toNat_lt
  simp only [decodeFrom, step, enter] at h
  -- the cases are those of the first octet
  split_ifs at h with h1 h2 h3 h4 h5 h6 h7 h8
  · cases cs with
    | nil => simp at h
    | cons c cs =>
      simp only [List.cons_append, List.nil_append, List.map_cons, List.cons.injEq,
        Option.some.injEq] at h
      rw [List.flatMap_cons, ← h.1, utf8EncodeChar_one h1, ih l (Nat.le_refl _) cs h.2]
      rfl
  · exact flatMap_of_pending_two h2 ih h
  · exact flatMap_of_pending_three h3 (by omega) (by omega) (by omega) (by omega) ih h
  · exact flatMap_of_pending_three h4 (by omega) (by omega) (by omega) (by omega) ih h
  · exact flatMap_of_pending_three (by omega) (by omega) (by omega) (by omega) (by omega) ih h
  · exact flatMap_of_pending_four h6 (by omega) (by omega) (by omega) (by omega) ih h
  · exact flatMap_of_pending_four (by omega) (by omega) (by omega) (by omega) (by omega) ih h
  · exact flatMap_of_pending_four h8 (by omega) (by omega) (by omega) (by omega) ih h
  · cases cs <;> simp at h

theorem recodes : ∀ (n : Nat) (l : List UInt8), l.length ≤ n → Recodes l := by
  intro n
  -- a character takes several octets, so the induction is on a bound of the length
  induction n with
  | zero =>
    intro l hl cs h
    obtain rfl : l = [] := List.eq_nil_of_length_eq_zero (by omega)
    cases cs with
    | nil => rfl
    | cons c cs => simp [decodeFrom] at h
  | succ n ih =>
    intro l hl
    cases l with
    | nil => exact ih [] (Nat.zero_le n)
    | cons b l =>
      have hlen : l.length ≤ n := by simpa using hl
      exact recodes_cons fun r hr => ih r (Nat.le_trans hr hlen)

/-- **Octets that decode to a text are the octets of the text.** -/
theorem encode_of_decode? {l : List UInt8} {s : String} (h : decode? l = some s) :
    encode s = l := by
  obtain ⟨cs, hcs, rfl⟩ := Option.map_eq_some_iff.mp h
  rw [encode, String.toList_ofList]
  have hdecoded := mapM_eq_some_iff.mp hcs
  rw [List.map_id] at hdecoded
  exact recodes l.length l (Nat.le_refl _) cs hdecoded

end Text.Utf8

end PlaybookPolicy
