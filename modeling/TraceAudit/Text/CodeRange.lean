/-!
# Ranges of code points

Character properties are given as lists of closed intervals of code points. Membership is a plain
search: the properties are asked about single characters of short texts.
-/

namespace TraceAudit.Text

/-- A closed interval of code points, first and last. -/
abbrev CodeRange := Nat × Nat

/-- Whether the character lies in one of the intervals. -/
def inRanges (ranges : List CodeRange) (c : Char) : Bool :=
  ranges.any fun r => r.1 ≤ c.toNat && c.toNat ≤ r.2

end TraceAudit.Text
