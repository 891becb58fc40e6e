/-!
# Severities

How grave a finding is, on a scale of six steps.

## Main definitions

* `Severity` — the six steps, in ascending order, with `Severity.le` and `Severity.lt` by rank.
* `Severity.text`, `Severity.ofText?` — the spelling of a step in configuration and output.
-/

namespace PlaybookPolicy

/-- How grave a finding is. -/
inductive Severity where
  /-- Worth knowing. -/
  | info
  /-- Hardly a problem. -/
  | veryLow
  /-- A small problem. -/
  | low
  /-- A problem. -/
  | medium
  /-- A grave problem. -/
  | high
  /-- As grave as it gets. -/
  | veryHigh
  deriving DecidableEq, Repr, Inhabited

namespace Severity

/-- The place of a step on the scale, from the least grave up. -/
def rank : Severity → Nat
  | info => 0
  | veryLow => 1
  | low => 2
  | medium => 3
  | high => 4
  | veryHigh => 5

instance : LE Severity where
  le a b := a.rank ≤ b.rank

instance : LT Severity where
  lt a b := a.rank < b.rank

instance (a b : Severity) : Decidable (a ≤ b) :=
  inferInstanceAs (Decidable (a.rank ≤ b.rank))

instance (a b : Severity) : Decidable (a < b) :=
  inferInstanceAs (Decidable (a.rank < b.rank))

instance : Ord Severity where
  compare a b := compare a.rank b.rank

/-- All steps, from the least grave up. -/
def all : List Severity :=
  [info, veryLow, low, medium, high, veryHigh]

/-- The spelling of a step. -/
def text : Severity → String
  | info => "INFO"
  | veryLow => "VERY_LOW"
  | low => "LOW"
  | medium => "MEDIUM"
  | high => "HIGH"
  | veryHigh => "VERY_HIGH"

/-- The step with the given spelling. -/
def ofText? (s : String) : Option Severity :=
  all.find? (·.text == s)

theorem ofText?_text (a : Severity) : ofText? a.text = some a := by
  cases a <;> decide

end Severity

end PlaybookPolicy
