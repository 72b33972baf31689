/-!
# Rules

The weaknesses that detectors look for. A finding carries the tag of its rule; findings of other
tools may carry any other tag.
-/

namespace TraceAudit

/-- A weakness with a tag of its own. -/
inductive Rule where
  | reentrancyInFrame
  | reentrancyInFlatTrace
  | uncheckedCall
  | originAuthorization
  | delegatecallTarget
  | arithmetic
  | accessControl
deriving DecidableEq, Repr, Inhabited

/-- The tag of a rule. -/
def Rule.tag : Rule → String
  | reentrancyInFrame => "ReentrancyHeuristicFrame"
  | reentrancyInFlatTrace => "reentrancy"
  | uncheckedCall => "UncheckedExternalCall"
  | originAuthorization => "TxOriginAuthHeuristic"
  | delegatecallTarget => "DelegatecallTargetHeuristic"
  | arithmetic => "ArithmeticOverflowUnderflow"
  | accessControl => "AccessControlIssue"

theorem Rule.tag_injective {a b : Rule} (h : a.tag = b.tag) : a = b := by
  revert h
  cases a <;> cases b <;> decide

end TraceAudit
