import TraceAudit.Rule
import TraceAudit.Severity
import TraceAudit.Text.Blank
import TraceAudit.Text.Case
import TraceAudit.Text.Search
import TraceAudit.Value.Basic

/-!
# Words of static analysis tools

Tools for static analysis name weaknesses and severities in words of their own. Here they are
brought to the rules and severities of this library: a rule is found by keywords in the tool's own
name for a weakness, and what has no keyword keeps its name as its rule.
-/

namespace TraceAudit.Static

/-- Keywords, in lower case, any of which stands for a rule. -/
structure Pattern where
  keywords : List String
  rule : Rule
deriving Repr

namespace Pattern

/-- Whether a keyword occurs in a text in lower case. -/
def covers (p : Pattern) (text : String) : Bool :=
  p.keywords.any (Text.contains text)

end Pattern

/-- The rule that a tool's name for a weakness stands for, by the first pattern that covers it; a
name that no pattern covers stays as it is. -/
def ruleOf (patterns : List Pattern) (name : String) : String :=
  match patterns.find? fun p => p.covers (Text.lower name) with
  | some p => p.rule.tag
  | none => name

/-- The severity that a tool's word for it stands for; what is not known is of medium severity. -/
def severityOf : Value → Severity
  | .text level =>
    match String.ofList (Text.lowerChars (Text.strip level.toList)) with
    | "critical" => .critical
    | "high" => .high
    | "medium" => .medium
    | "low" | "informational" | "optimization" => .low
    | _ => .medium
  | _ => .medium

/-- What is recommended where a rule has no recommendation of its own. -/
def defaultRecommendation : String :=
  "Review and apply appropriate mitigation measures."

/-- The rules with a recommendation of their own. -/
def recommendations : List (Rule × String) := [
  (.reentrancyInFrame,
    "Use checks-effects-interactions pattern. Consider reentrancy guards (OpenZeppelin)."),
  (.arithmetic,
    "Upgrade to Solidity >=0.8 for built-in overflow checks. Use SafeMath for earlier versions."),
  (.delegatecallTarget,
    "Ensure delegatecall target is whitelisted and audited. Avoid dynamic targets."),
  (.originAuthorization, "Never use tx.origin for access control. Use msg.sender instead.")]

/-- The recommendation for findings with the tag of a rule. -/
def recommendationFor (rule : String) : String :=
  ((recommendations.find? fun r => r.1.tag = rule).map Prod.snd).getD defaultRecommendation

end TraceAudit.Static
