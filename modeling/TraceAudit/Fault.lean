import TraceAudit.Value.Basic

/-!
# Faults

The ways in which an input is refused or an operation cannot go on. A fault names its cause; its
wording is `Fault.message`.
-/

namespace TraceAudit

/-- Why a trace is not a sequence of steps. -/
inductive TraceDefect where
  /-- The response that should hold the trace is neither an object nor a list. -/
  | container (kind : String)
  /-- The steps are not a sequence. -/
  | noSequence
  /-- An element of the sequence is not an object. -/
  | element (position : Nat) (kind : String)
deriving DecidableEq, Repr

/-- Why the output of another tool holds no list of results. -/
inductive PayloadDefect where
  /-- The output as a whole is of a kind that the tool does not write. -/
  | kind (tool : String) (kind : String)
  /-- The results of a report are not where they should be. -/
  | slitherResults
  /-- The issues of a report are not a list. -/
  | mythrilIssues
deriving DecidableEq, Repr

/-- The cause of a failure. -/
inductive Fault where
  /-- The trace is not a sequence of steps. -/
  | malformedTrace (defect : TraceDefect)
  /-- The named fields of a record have no admissible value. -/
  | rejectedFields (names : List String)
  /-- The output of another tool holds no results. -/
  | payload (defect : PayloadDefect)
  /-- A text that should be JSON is not. -/
  | unreadableJson
  /-- The value's kind lacks the operation. -/
  | missingOperation
  /-- The operation does not take a value of this kind. -/
  | wrongKind
  /-- The value's kind is right but not the value. -/
  | badValue
  /-- A position lies outside of the sequence. -/
  | outOfRange
  /-- A number is too large for what it stands for. -/
  | overflow
  /-- A value is nested more deeply than a walk over it goes. -/
  | tooDeep
  /-- A detector gave up for a reason of its own. -/
  | raised (reason : String)
deriving DecidableEq, Repr

/-- The wording of a trace defect. -/
def TraceDefect.message : TraceDefect → String
  | container kind => s!"Unsupported trace container: {kind}"
  | noSequence => "structLogs must be a sequence of step objects"
  | element position kind => s!"structLogs[{position}] is {kind}, expected an object"

/-- The wording of a payload defect. -/
def PayloadDefect.message : PayloadDefect → String
  | kind tool k => s!"unsupported {tool} payload type {k}"
  | slitherResults => "Slither 'results' is neither a list nor a detectors mapping"
  | mythrilIssues => "Mythril 'issues' is not a list"

/-- The wording of a fault. -/
def Fault.message : Fault → String
  | malformedTrace defect => defect.message
  | rejectedFields names => "invalid fields: " ++ ", ".intercalate names
  | payload defect => defect.message
  | unreadableJson => "the text is not JSON"
  | missingOperation => "the value lacks the operation"
  | wrongKind => "the value has the wrong kind"
  | badValue => "the value is out of its domain"
  | outOfRange => "list index out of range"
  | overflow => "the number is too large"
  | tooDeep => "the value is nested too deeply"
  | raised reason => reason

end TraceAudit
