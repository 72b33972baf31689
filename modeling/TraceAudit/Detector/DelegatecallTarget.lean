import TraceAudit.Detector.Basic

/-!
# Targets of delegated calls

A delegated call runs foreign code on the caller's own storage. Every one is reported, less
urgently if its target was pushed as a constant shortly before it in the same frame. What was
pushed shows on top of the stack of the following step.
-/

namespace TraceAudit

/-- A delegated call. -/
structure DelegatedCall where
  call : Step
  frame : Option Int
  target : Option String
  /-- Whether the target was pushed as a constant. -/
  constant : Bool
deriving DecidableEq, Repr

namespace DelegatedCall

/-- Whether the step at a position pushes an address. -/
def pushes (c : Context) (target : String) (i : Int) (s : Step) : Bool :=
  s.op = Opcode.addressPush &&
    ((c.step? (i + 1)).bind fun next => next.address? 0) = some target

/-- The positions before a step that are looked at. -/
def lookback (c : Context) (call : Int) : List Int :=
  c.positions (max 0 (call - c.settings.delegatecallConstantLookback)) call

/-- Whether a target was pushed as a constant before a call, in the same frame. -/
def isConstant (c : Context) (target : String) (call : Int) : Except Fault Bool := do
  let pushed ← c.collect (fun i s => c.frameOf i = c.frameOf call && pushes c target i s) 1
    (lookback c call)
  return !pushed.isEmpty

/-- The delegated call that a step is, if it is one. -/
def ofStep (c : Context) (s : Step) : Except Fault (List DelegatedCall) :=
  if s.op = CallOp.delegatecall.name then do
    let target := s.address? 1
    let constant ← match target with
      | some t => isConstant c t s.index
      | none => .ok false
    return [⟨s, c.frameOf s.index, target, constant⟩]
  else .ok []

/-- The severity of a delegated call. -/
def severity (d : DelegatedCall) : Severity :=
  if d.constant then .medium else .high

/-- The description of a delegated call. -/
def description (d : DelegatedCall) : String :=
  let frame := (Value.ofInt? d.frame).display
  let target := d.target.getD "dynamic address"
  s!"DELEGATECALL at step {d.call.index} in frame {frame} targets {target}. " ++
  (if d.constant then "Target appears to be hardcoded (constant), reducing risk. "
    else "Target address appears to be dynamic or unverified. ") ++
  "DELEGATECALL executes target code in caller context, risking unauthorized " ++
  "state changes and reentrancy. Ensure target is whitelisted and audited."

/-- The write-up of a delegated call. -/
def draft (d : DelegatedCall) : Draft where
  title := "Risky DELEGATECALL: Execution Control Risk"
  description := d.description
  evidence := [
    ("step", .int d.call.index), ("pc", .int d.call.pc), ("frame_id", .ofInt? d.frame),
    ("target_address", .text (d.target.getD "unknown")), ("target_is_constant", .bool d.constant)]
  severity := d.severity

/-- What the detector of delegated calls says about itself. -/
def info : DetectorInfo where
  id := "SWC-112-001"
  name := "Risky DELEGATECALL Target"
  description := "Flags every DELEGATECALL. A target pushed as a PUSH20 constant shortly " ++
    "before the call in the same frame lowers the severity."
  weakness := "SWC-112"
  rule := .delegatecallTarget
  severity := .high
  category := "delegatecall"
  recommendation := "Avoid delegatecall if possible. If necessary, ensure target address is " ++
    "a constant that is whitelisted and audited. Use access control patterns to " ++
    "restrict who can call delegatecall functions."
  tags := ["delegatecall", "execution-control"]

end DelegatedCall

/-- The detector of delegated calls. -/
def Detector.delegatecallTarget : Detector where
  info := DelegatedCall.info
  detect c := c.steps.toList.flatMapM fun s =>
    DelegatedCall.info.makeAll DelegatedCall.draft (DelegatedCall.ofStep c s)

end TraceAudit
