import TraceAudit.Address
import TraceAudit.Detector.Basic

/-!
# Reentrancy in frames

A frame that writes storage after an external call is exposed: the callee, or whatever it calls,
may come back while the frame's state is stale. Calls to contracts that the machine provides and
calls of a frame to itself are left out, unless they are delegated. Two things are reported for a
call: that writes follow it, if nested frames could have come back or the call is delegated; and
each slot that is written more than once behind it.
-/

namespace TraceAudit

/-- An external call of a frame with storage writes of the frame behind it. -/
structure ExposedCall where
  frame : Frame
  call : Step
  /-- The frame that the call opened. -/
  opened : Option Frame
  target : Option String
  /-- The writes of the frame behind the call. -/
  writes : List StorageWrite
deriving DecidableEq, Repr

namespace ExposedCall

/-- Whether a call is delegated. -/
def isDelegated (call : Step) : Bool :=
  call.op = CallOp.delegatecall.name

/-- The target of a call, as the frame that it opened tells it, or else from the stack. -/
def targetOf (opened : Option Frame) (call : Step) : Option String :=
  match (opened.bind Frame.target).filter (· ≠ "") with
  | some target => some target
  | none => call.address? 1

/-- Whether a call of a frame to a target cannot come back from outside. -/
def isHarmless (frame : Frame) (call : Step) (target : Option String) : Bool :=
  !isDelegated call &&
    target.any fun t => Address.isPrecompile t || frame.target.any (Address.same t)

/-- The exposed call that a call of a frame is, if it is one. -/
def ofCall? (c : Context) (frame : Frame) (writes : List StorageWrite) (call : Step) :
    Option ExposedCall :=
  let after := writes.filter fun w => call.index < w.step
  let opened := c.openedAt call.index
  let target := targetOf opened call
  if after.isEmpty || isHarmless frame call target then none
  else some ⟨frame, call, opened, target, after⟩

/-- The external calls of a frame. -/
def callsOf (c : Context) (frame : Frame) : List Step :=
  c.steps.toList.filter fun s => s.isExternalCall && c.frameOf s.index = some frame.id

/-- Whether somebody could have come back before the writes. -/
def isOpen (e : ExposedCall) : Bool :=
  !e.frame.children.isEmpty || isDelegated e.call

/-- The slots that are written more than once, in the order of their first writes, with their
writes. -/
def repeated (e : ExposedCall) : List (String × List StorageWrite) :=
  ((e.writes.map StorageWrite.slot).eraseDups.map fun slot =>
    (slot, e.writes.filter fun w => w.slot = slot)).filter fun g => 2 ≤ g.2.length

/-! ### Write-ups -/

/-- The call as evidence. -/
def callEvidence (e : ExposedCall) : Value :=
  .object [
    ("step", .int e.call.index), ("op", .text e.call.op), ("pc", .int e.call.pc),
    ("to", .ofText? e.target), ("value", .ofText? (e.opened.bind Frame.value)),
    ("selector", .ofText? (e.opened.bind Frame.selector))]

/-- The steps of writes, as text. -/
def stepList (ws : List StorageWrite) : String :=
  ", ".intercalate (ws.map fun w => Numeral.decimal w.step)

/-- The description of a call with writes behind it. -/
def lateWriteDescription (e : ExposedCall) : String :=
  let target := e.target.getD "unknown"
  s!"Frame {e.frame.id} ({e.frame.kind.name}) contains external {e.call.op} at step " ++
  s!"{e.call.index} to {target}, followed by state update(s) at steps " ++
  s!"{stepList e.writes}. Attacker callback in nested " ++
  "frame(s) may exploit state inconsistency."

/-- The write-up of a call with writes behind it. -/
def lateWriteDraft (e : ExposedCall) : Draft where
  title := "Potential Reentrancy: External Call Before State Update (Frame-Aware)"
  description := e.lateWriteDescription
  evidence := [
    ("frame_id", .int e.frame.id), ("frame_kind", .text e.frame.kind.name),
    ("external_call", e.callEvidence), ("nested_frames", .ofInts e.frame.children),
    ("sstores", .list (e.writes.map StorageWrite.toValue))]
  severity := .high

/-- The description of a slot that is written more than once. -/
def repeatedDescription (e : ExposedCall) (slot : String) (ws : List StorageWrite) : String :=
  s!"Frame {e.frame.id} writes to slot 0x{slot} {ws.length} times " ++
  s!"(steps {stepList ws}) after external {e.call.op} " ++
  s!"at step {e.call.index}. Multiple updates to the same state after an " ++
  "external interaction indicate race condition risk."

/-- The write-up of a slot that is written more than once. -/
def repeatedDraft (e : ExposedCall) (slot : String) (ws : List StorageWrite) : Draft where
  title := "Potential Reentrancy: Multiple State Updates After External Call"
  description := e.repeatedDescription slot ws
  evidence := [
    ("frame_id", .int e.frame.id), ("frame_kind", .text e.frame.kind.name),
    ("external_call", e.callEvidence),
    ("multiple_writes", .object [
      ("slot", .text slot), ("count", .int ws.length),
      ("steps", .ofInts (ws.map StorageWrite.step))]),
    ("sstores", .list (ws.map StorageWrite.toValue))]
  severity := .medium
  tags := ["state-race"]

/-- What the detector of reentrancy in frames says about itself. -/
def info : DetectorInfo where
  id := "SWC-107-001"
  name := "Reentrancy: External Call Before State Update (Frame-Aware)"
  description := "Flags frames that write storage after making an external call while " ++
    "nested execution could have re-entered, and slots written repeatedly " ++
    "after such a call."
  weakness := "SWC-107"
  rule := .reentrancyInFrame
  severity := .high
  category := "reentrancy"
  recommendation := "Use checks-effects-interactions pattern. Emit events before external " ++
    "calls. Consider reentrancy guards (OpenZeppelin)."
  tags := ["reentrancy", "frame-aware"]

/-! ### The search -/

/-- What is found for an exposed call: that writes follow it, and each slot that is written more
than once behind it. -/
def detectCall (e : ExposedCall) : DetectM (List Finding) := do
  let late ← if e.isOpen then do pure [← info.make e.lateWriteDraft] else pure []
  let repeated ← e.repeated.mapM fun g => info.make (e.repeatedDraft g.1 g.2)
  return late ++ repeated

/-- What is found in a frame, call by call. -/
def detectFrame (c : Context) (frame : Frame) : DetectM (List Finding) :=
  let writes := c.writesOf (some frame.id)
  if writes.isEmpty then pure []
  else (callsOf c frame).flatMapM fun call =>
    match ofCall? c frame writes call with
    | some e => detectCall e
    | none => pure []

end ExposedCall

/-- The detector of reentrancy in frames. -/
def Detector.frameReentrancy : Detector where
  info := ExposedCall.info
  detect c := if c.hasFrames then c.frames.flatMapM (ExposedCall.detectFrame c) else pure []

end TraceAudit
