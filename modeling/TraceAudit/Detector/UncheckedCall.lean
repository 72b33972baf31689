import TraceAudit.Detector.Basic

/-!
# Unchecked calls

An external call reports failure by a flag on the stack. If nothing that looks like a check of the
flag comes within a window behind the call, the call may fail silently.
-/

namespace TraceAudit

/-- A call whose outcome is not checked. -/
structure UncheckedCall where
  call : Step
  /-- How many steps behind the call were looked at for a check. -/
  window : Nat
deriving DecidableEq, Repr

namespace UncheckedCall

/-- Whether a step counts as a check. -/
def isCheck (s : Step) : Bool :=
  Opcode.callChecks.contains s.op

/-- Whether a call with the steps behind it is unchecked. -/
def isUnchecked (window : Nat) (s : Step) (rest : List Step) : Bool :=
  s.isExternalCall && !(rest.take window).any isCheck

/-- The write-up of an unchecked call whose window can be written. -/
def draft (u : UncheckedCall) : Draft where
  title := "Unchecked External Call: " ++ u.call.op
  description := s!"External call ({u.call.op}) at step {u.call.index} has no apparent return " ++
    s!"value check in the following {u.window} steps. Call may fail silently."
  evidence := [
    ("call_step", .int u.call.index), ("call_op", .text u.call.op), ("pc", .int u.call.pc),
    ("checked_within_steps", .int u.window), ("found_check", .bool false)]
  severity := .medium

/-- The write-up of an unchecked call. It tells the window in decimal. -/
def draft? (u : UncheckedCall) : Except Fault Draft :=
  if Numeral.isWritable u.window then .ok u.draft else .error .badValue

/-- What the detector of unchecked calls says about itself. -/
def info : DetectorInfo where
  id := "SWC-104-001"
  name := "Unchecked External Call"
  description := "Flags CALL/STATICCALL/DELEGATECALL/CALLCODE steps not followed by any " ++
    "ISZERO, JUMPI or REVERT within the lookahead window."
  weakness := "SWC-104"
  rule := .uncheckedCall
  severity := .medium
  category := "unchecked-returns"
  recommendation := "Always check return value of external calls. Use require() or handle " ++
    "failure cases explicitly."
  tags := ["unchecked-call"]

/-- What is found at a step with the steps behind it. -/
def detectAt (window : Nat) (s : Step) (rest : List Step) : DetectM (List Finding) := do
  if isUnchecked window s rest then
    let draft ← draft? ⟨s, window⟩
    return [← info.make draft]
  else return []

end UncheckedCall

/-- The detector of unchecked calls. -/
def Detector.uncheckedCall : Detector where
  info := UncheckedCall.info
  detect c :=
    DetectM.alongTails (UncheckedCall.detectAt c.settings.uncheckedCallWindow) c.steps.toList

end TraceAudit
