/-!
# Severity

Findings are ranked by severity, and a merged finding has the highest severity of its parts.
-/

namespace TraceAudit

/-- How bad a finding is. -/
inductive Severity where
  | critical
  | high
  | medium
  | low
deriving DecidableEq, Repr, Inhabited

namespace Severity

/-- The place in the order, one for the least severity. -/
def rank : Severity → Nat
  | critical => 4
  | high => 3
  | medium => 2
  | low => 1

/-- The severity of higher rank. -/
def highest (a b : Severity) : Severity :=
  if b.rank ≤ a.rank then a else b

/-- The name of a severity. -/
def name : Severity → String
  | critical => "critical"
  | high => "high"
  | medium => "medium"
  | low => "low"

/-- Every severity, the highest first. -/
def all : List Severity :=
  [critical, high, medium, low]

/-- The severity with the given name. -/
def ofName? (s : String) : Option Severity :=
  all.find? fun v => v.name = s

/-- The rank of the highest is the greater of the ranks. -/
theorem rank_highest (a b : Severity) : (highest a b).rank = max a.rank b.rank := by
  cases a <;> cases b <;> rfl

/-! ### The highest of several severities does not depend on their order -/

theorem highest_comm (a b : Severity) : highest a b = highest b a := by
  cases a <;> cases b <;> rfl

theorem highest_assoc (a b c : Severity) : highest (highest a b) c = highest a (highest b c) := by
  cases a <;> cases b <;> cases c <;> rfl

end Severity

end TraceAudit
