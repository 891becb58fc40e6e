import Mathlib.Data.List.Basic
import PlaybookPolicy.Text.Quotes

/-!
# Texts in quotes

A text is in quotes if it begins and ends with one and the same quote, and these are two characters.
What stands between them may hold any quotes.

## Main definitions

* `Text.InQuotes` — a text is another one between two quotes of one kind.
* `Text.Unquotes` — a text without one pair of quotes around it.

## Main results

* `Text.unquote_eq_iff` — **what is left of a text without its quotes.**
-/

namespace PlaybookPolicy

namespace Text

/-- The text is `l` between two quotes of one kind. -/
def InQuotes (text l : List Char) : Prop :=
  ∃ q, (q = '"' ∨ q = '\'') ∧ text = q :: (l ++ [q])

/-- What is left of a text without one pair of quotes around it, if there is a pair. -/
def Unquotes (text l : List Char) : Prop :=
  InQuotes text l ∨ text = l ∧ ∀ m, ¬InQuotes text m

theorem isQuotedBy_iff {q : Char} {text : List Char} :
    isQuotedBy q text = true ↔ ∃ l, text = q :: (l ++ [q]) := by
  constructor
  · intro h
    simp only [isQuotedBy, ge_iff_le, Bool.and_eq_true, decide_eq_true_eq, beq_iff_eq] at h
    obtain ⟨⟨hlength, hhead⟩, hlast⟩ := h
    cases text with
    | nil => cases hhead
    | cons c r =>
      cases hhead
      -- the last character is another one than the first, as there are two
      have hne : r ≠ [] := by
        rintro rfl
        simp at hlength
      rw [List.getLast?_cons_of_ne_nil hne, List.getLast?_eq_some_iff] at hlast
      obtain ⟨l, rfl⟩ := hlast
      exact ⟨l, rfl⟩
  · rintro ⟨l, rfl⟩
    have hlast : (q :: (l ++ [q])).getLast? = some q := by
      rw [← List.cons_append, List.getLast?_concat]
    simp [isQuotedBy, hlast]

theorem unquote_of_inQuotes {text l : List Char} (h : InQuotes text l) : unquote text = l := by
  obtain ⟨q, hq, rfl⟩ := h
  have hquoted : isQuotedBy q (q :: (l ++ [q])) = true := isQuotedBy_iff.mpr ⟨l, rfl⟩
  have heither :
      (isQuotedBy '"' (q :: (l ++ [q])) || isQuotedBy '\'' (q :: (l ++ [q]))) = true := by
    rcases hq with rfl | rfl
    · rw [hquoted, Bool.true_or]
    · rw [hquoted, Bool.or_true]
  rw [unquote, if_pos heither, List.drop_one, List.tail_cons, List.dropLast_concat]

theorem unquote_of_not_inQuotes {text : List Char} (h : ∀ l, ¬InQuotes text l) :
    unquote text = text := by
  rw [unquote, if_neg]
  intro hquoted
  rcases Bool.or_eq_true_iff.mp hquoted with hq | hq
  · obtain ⟨l, hl⟩ := isQuotedBy_iff.mp hq
    exact h l ⟨'"', .inl rfl, hl⟩
  · obtain ⟨l, hl⟩ := isQuotedBy_iff.mp hq
    exact h l ⟨'\'', .inr rfl, hl⟩

theorem unquote_eq_iff {text l : List Char} : unquote text = l ↔ Unquotes text l := by
  constructor
  · intro h
    by_cases hquoted : ∃ m, InQuotes text m
    · obtain ⟨m, hm⟩ := hquoted
      rw [← h, unquote_of_inQuotes hm]
      exact .inl hm
    · rw [not_exists] at hquoted
      rw [unquote_of_not_inQuotes hquoted] at h
      exact .inr ⟨h, hquoted⟩
  · rintro (h | ⟨rfl, h⟩)
    · exact unquote_of_inQuotes h
    · exact unquote_of_not_inQuotes h

end Text

end PlaybookPolicy
