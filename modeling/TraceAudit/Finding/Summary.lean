import TraceAudit.Finding.Basic

/-!
# Summaries

How many findings there are, in all and of each severity.
-/

namespace TraceAudit

/-- Counts of findings. -/
structure Summary where
  total : Nat
  critical : Nat
  high : Nat
  medium : Nat
  low : Nat
deriving DecidableEq, Repr

namespace Summary

/-- The counts of a list of severities. -/
def ofSeverities (vs : List Severity) : Summary where
  total := vs.length
  critical := vs.count .critical
  high := vs.count .high
  medium := vs.count .medium
  low := vs.count .low

/-- The counts of a list of findings. -/
def ofFindings (fs : List Finding) : Summary :=
  ofSeverities (fs.map Finding.severity)

/-- A summary as a record. -/
def toValue (s : Summary) : Value :=
  .object [
    ("total", .int s.total), ("critical", .int s.critical), ("high", .int s.high),
    ("medium", .int s.medium), ("low", .int s.low)]

/-- Every finding has exactly one severity. -/
theorem total_ofSeverities (vs : List Severity) :
    (ofSeverities vs).total = (ofSeverities vs).critical + (ofSeverities vs).high +
      (ofSeverities vs).medium + (ofSeverities vs).low := by
  induction vs with
  | nil => rfl
  | cons v vs ih =>
    simp only [ofSeverities, List.length_cons, List.count_cons] at *
    cases v <;> simp <;> omega

end Summary

end TraceAudit
