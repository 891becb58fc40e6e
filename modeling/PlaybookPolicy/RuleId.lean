import PlaybookPolicy.Text.Alphanumeric

/-!
# Rule ids

A rule is named by a non-empty text of letters, digits, hyphens and underscores.

## Main definitions

* `IsRuleIdText` — the texts that name a rule.
* `RuleId` — such a text; `RuleId.ofText?` checks it.
-/

namespace PlaybookPolicy

/-- The character may stand in a rule id. -/
def isRuleIdChar (c : Char) : Bool :=
  Text.isAlphanumeric c || c == '-' || c == '_'

/-- A text that names a rule: it is not empty, and each character is alphanumeric, a hyphen or an
underscore. -/
def IsRuleIdText (s : String) : Prop :=
  s ≠ "" ∧ ∀ c ∈ s.toList, isRuleIdChar c = true

instance (s : String) : Decidable (IsRuleIdText s) :=
  decidable_of_iff (s ≠ "" ∧ s.toList.all isRuleIdChar = true) (by simp [IsRuleIdText])

/-- The id of a rule. -/
structure RuleId where
  /-- The text of the id. -/
  text : String
  /-- The text names a rule. -/
  valid : IsRuleIdText text
  deriving DecidableEq

namespace RuleId

/-- The id with the given text, if the text names a rule. -/
def ofText? (s : String) : Option RuleId :=
  if h : IsRuleIdText s then some ⟨s, h⟩ else none

theorem ofText?_text (id : RuleId) : ofText? id.text = some id := by
  simp [ofText?, id.valid]

instance : Inhabited RuleId :=
  ⟨⟨"_", by simp [IsRuleIdText, isRuleIdChar]⟩⟩

end RuleId

end PlaybookPolicy
