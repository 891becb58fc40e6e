import Mathlib.Data.List.Basic
import PlaybookPolicy.Yaml.Scalar

/-!
# The characters of written numbers

A written number is made of digits, signs, points, the letter of the exponent, and the words for
infinity and for what is no number.

## Main results

* `FloatText.mem_write` — the characters of a written double.
* `Yaml.mem_intText` — the characters of a written integer.
* `FloatText.write_ne_empty`, `Yaml.intText_ne_empty` — neither text is empty.
-/

namespace PlaybookPolicy

/-- The character may stand in a decimal numeral. -/
def isNumeralChar (c : Char) : Bool :=
  c.isDigit || c == '-' || c == '.' || c == 'e'

theorem isNumeralChar_of_isDigit {c : Char} (h : c.isDigit = true) : isNumeralChar c = true := by
  simp [isNumeralChar, h]

theorem isNumeralChar_of_mem_natDigits {n : Nat} {c : Char} (h : c ∈ natDigits n) :
    isNumeralChar c = true :=
  isNumeralChar_of_isDigit (Nat.isDigit_of_mem_toDigits (by decide) (by decide) h)

theorem toList_toString_ofNat (n : Nat) : (toString (Int.ofNat n)).toList = natDigits n := by
  show (Nat.repr n).toList = _
  simp [natDigits]

theorem toList_toString_negSucc (n : Nat) :
    (toString (Int.negSucc n)).toList = '-' :: natDigits (n + 1) := by
  show ("-" ++ Nat.repr (n + 1)).toList = _
  simp [natDigits]

theorem mem_toString_int {i : Int} {c : Char} (h : c ∈ (toString i).toList) :
    isNumeralChar c = true := by
  cases i with
  | ofNat n =>
    rw [toList_toString_ofNat] at h
    exact isNumeralChar_of_mem_natDigits h
  | negSucc n =>
    rw [toList_toString_negSucc, List.mem_cons] at h
    rcases h with rfl | h
    · rfl
    · exact isNumeralChar_of_mem_natDigits h

namespace FloatText

/-- A written decimal consists of the characters of numerals. -/
theorem mem_writeDecimal {t : FloatText} {d : Decimal} {c : Char} (h : c ∈ t.writeDecimal d) :
    isNumeralChar c = true := by
  have hdigits : ∀ c ∈ ((natDigits d.mantissa).reverse.dropWhile (· == '0')).reverse,
      isNumeralChar c = true := by
    intro c hc
    rw [List.mem_reverse] at hc
    have hc := (List.dropWhile_sublist _).subset hc
    exact isNumeralChar_of_mem_natDigits (List.mem_reverse.mp hc)
  have hzero : ∀ n, ∀ c ∈ List.replicate n '0', isNumeralChar c = true := by
    intro n c hc
    rw [List.eq_of_mem_replicate hc]
    rfl
  simp only [writeDecimal] at h
  -- positional behind or before the point, or scientific
  split at h
  · split at h
    · simp only [List.mem_cons, List.mem_append] at h
      rcases h with rfl | rfl | h | h
      · rfl
      · rfl
      · exact hzero _ c h
      · exact hdigits c h
    · simp only [List.mem_append, List.mem_cons] at h
      rcases h with (h | h) | rfl | h
      · exact hdigits c (List.mem_of_mem_take h)
      · exact hzero _ c h
      · rfl
      · split at h
        · rw [List.mem_singleton.mp h]
          rfl
        · exact hdigits c (List.mem_of_mem_drop h)
  · simp only [List.mem_append, List.mem_cons] at h
    rcases h with (h | h) | rfl | h
    · exact hdigits c (List.mem_of_mem_take h)
    · split at h
      · cases h
      · rcases List.mem_cons.mp h with rfl | h
        · rfl
        · exact hdigits c (List.mem_of_mem_drop h)
    · rfl
    · exact mem_toString_int h

/-- **The characters of a written double** are those of numerals and of the words of the format. -/
theorem mem_write {t : FloatText} {x : Float} {c : Char} (h : c ∈ (t.write x).toList) :
    isNumeralChar c = true ∨ c ∈ t.infinity.toList ∨ c ∈ t.notANumber.toList := by
  have hsign : ∀ b : Nat, c ∈ (if b ≥ Nat.pow 2 63 then "-" else "").toList →
      isNumeralChar c = true := by
    intro b hc
    split at hc
    · rw [List.mem_singleton.mp hc]
      rfl
    · cases hc
  simp only [write] at h
  split at h
  · exact .inr (.inr h)
  · split at h
    · rw [String.toList_append, List.mem_append] at h
      rcases h with h | h
      · exact .inl (hsign _ h)
      · exact .inr (.inl h)
    · split at h
      · rw [String.toList_append, List.mem_append] at h
        rcases h with h | h
        · exact .inl (hsign _ h)
        · have hzero : "0.0".toList.all isNumeralChar = true := by decide
          exact .inl (List.all_eq_true.mp hzero c h)
      · rw [String.toList_append, List.mem_append] at h
        rcases h with h | h
        · exact .inl (hsign _ h)
        · exact .inl (mem_writeDecimal (by simpa using h))

theorem writeDecimal_ne_nil (t : FloatText) (d : Decimal) : t.writeDecimal d ≠ [] := by
  simp only [writeDecimal]
  split
  · split <;> simp
  · simp

/-- A written double is not empty if the words of the format are not. -/
theorem write_ne_empty {t : FloatText} (hinf : t.infinity ≠ "") (hnan : t.notANumber ≠ "")
    (x : Float) : t.write x ≠ "" := by
  simp only [write]
  split
  · exact hnan
  · split
    · simp [hinf]
    · split
      · simp
      · simp [writeDecimal_ne_nil]

end FloatText

namespace Yaml

theorem mem_intText {n : Int} {c : Char} (h : c ∈ (intText n).toList) :
    isNumeralChar c = true :=
  mem_toString_int h

theorem intText_ne_empty (n : Int) : intText n ≠ "" := by
  cases n with
  | ofNat n =>
    show Nat.repr n ≠ ""
    simp
  | negSucc n =>
    show "-" ++ Nat.repr (n + 1) ≠ ""
    simp

end Yaml

end PlaybookPolicy
