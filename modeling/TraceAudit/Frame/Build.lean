import TraceAudit.Calldata
import TraceAudit.Frame.Basic
import TraceAudit.Step.Operand
import TraceAudit.Transaction

/-!
# Reconstruction of frames

A trace is flat: it shows depths, not calls. One pass over the steps rebuilds the tree. The pass
keeps the scopes that are open, each with the depth at which the trace showed its opening call:

* a step at or above the entry depth of an open scope lies outside of it, so it closes this scope
  and all scopes inside of it;
* the step then belongs to the innermost scope that is left;
* a call or creation opens a scope for the steps to come, and a halt settles the status of the
  current frame, since depths alone cannot tell a failure from a return.

What is still open at the end of the trace is closed at its last step. Everything that a scope
needs while it is open is known when it opens, so scopes hold only what is read, and the frames
themselves are only ever written to.
-/

namespace TraceAudit

/-! ### Operands -/

/-- Where a call finds its operands on the stack, counted from the top. -/
structure CallLayout where
  target : Option Nat
  value : Option Nat
  offset : Nat
  size : Nat
  /-- The number of words that the call pops. -/
  arity : Nat

/-- The layout of each call. -/
def CallOp.layout : CallOp → CallLayout
  | call | callcode => ⟨some 1, some 2, 3, 4, 7⟩
  | delegatecall | staticcall => ⟨some 1, none, 2, 3, 6⟩
  | create => ⟨none, some 0, 1, 2, 3⟩
  | create2 => ⟨none, some 0, 1, 2, 4⟩

/-- The decoded operands of a call. -/
structure CallOperands where
  target : Option String := none
  value : Option String := none
  input : Option String := none
deriving DecidableEq, Repr

namespace Step

/-- Whether decoding the operands of a call looks at the memory. -/
def readsMemory (s : Step) (op : CallOp) : Bool :=
  op.layout.arity ≤ s.stack.length &&
    Calldata.touchesMemory (s.int? op.layout.offset) (s.int? op.layout.size)

/-- The operands of a call. A stack that is too short has none; calls without a value of their own
transfer zero. -/
def callOperands (s : Step) (op : CallOp) : Except Fault CallOperands :=
  let at' := op.layout
  if s.stack.length < at'.arity then .ok {}
  else do
    let input ← Calldata.read s.memory (s.int? at'.offset) (s.int? at'.size)
    return {
      target := at'.target.bind s.address?
      value := match at'.value with
        | none => some "0x0"
        | some place => (s.int? place).map Numeral.hex
      input }

end Step

/-! ### Events of a frame -/

namespace Frame

/-- Count a step of the frame. -/
def spend (gas : Int) (f : Frame) : Frame :=
  if 0 < gas then { f with gasSpent := f.gasSpent + gas } else f

/-- Add a child. -/
def adopt (child : Int) (f : Frame) : Frame :=
  { f with children := f.children ++ [child] }

/-- Fail at an instruction. -/
def fail (op : String) (f : Frame) : Frame :=
  { f with status := .failed, errorKind := some op }

/-- Succeed, unless the status is settled. -/
def succeed (f : Frame) : Frame :=
  if f.status = .unknown then { f with status := .success } else f

/-- Take note of a halt of the frame's own. -/
def halt (s : Step) (f : Frame) : Frame :=
  if s.isAbnormalHalt then f.fail s.op
  else if s.isNormalHalt then f.succeed
  else f

/-- End at a step, not before the start. -/
def endAt (last : Int) (f : Frame) : Frame :=
  { f with endStep := max f.startStep last }

/-- Close because `outside`, the first step outside of the frame, follows the step `last`. A halt in
failure outside of the frame tells that a frame without a status of its own failed. -/
def closeBefore (outside : Step) (last : Int) (f : Frame) : Frame :=
  (if f.status = .unknown ∧ outside.isAbnormalHalt then f.fail outside.op else f.succeed).endAt last

/-- Close because the trace ends. -/
def closeAtEnd (last : Int) (f : Frame) : Frame :=
  f.succeed.endAt last

end Frame

/-! ### The pass -/

/-- An open scope: what the pass reads of a frame while it is open. -/
structure Scope where
  id : Nat
  depth : Int
  entryDepth : Int
  target : Option String
deriving DecidableEq, Repr

/-- The state of the pass: the frames so far, by id, the current scope with the scopes around it,
and the frames of the steps so far, the latest first. -/
structure FrameWalk where
  frames : List Frame
  current : Scope
  outer : List Scope
  owners : List Nat
deriving Repr

namespace FrameWalk

/-- Change the frame with an id. -/
def update (frames : List Frame) (id : Nat) (change : Frame → Frame) : List Frame :=
  frames.modify id change

/-- The frame of the transaction. -/
def rootFrame (tx : Transaction) (last : Int) : Frame :=
  { id := 0
    sender := (tx.sender.filter (· ≠ "")).map Text.lower
    target := (tx.target.filter (· ≠ "")).map Text.lower
    value := some ((tx.value.bind Amount.hexText?).getD "0x0")
    input := tx.input
    selector := tx.input.bind Calldata.selector?
    endStep := last }

/-- The pass before the first step. -/
def start (tx : Transaction) (last : Int) : FrameWalk :=
  let root := rootFrame tx last
  { frames := [root]
    current := ⟨0, 0, 0, root.target⟩
    outer := []
    owners := [] }

/-- Close the scopes that `s`, the step at position `i`, lies outside of. The scope of the
transaction is never closed. -/
def leave (s : Step) (i : Nat) (frames : List Frame) (current : Scope) :
    List Scope → List Frame × Scope × List Scope
  | [] => (frames, current, [])
  | up :: outer =>
    if s.depth ≤ current.entryDepth then
      leave s i (update frames current.id (Frame.closeBefore s ((i : Int) - 1))) up outer
    else (frames, current, up :: outer)

/-- The frame that a call opens. -/
def child (s : Step) (i : Nat) (op : CallOp) (parent : Scope) (id : Nat) (o : CallOperands) :
    Frame :=
  { id := id
    parent := some parent.id
    depth := parent.depth + 1
    entryDepth := s.depth
    kind := .opened op
    sender := parent.target
    target := o.target
    value := o.value
    input := o.input
    selector := if op.creates then none else o.input.bind Calldata.selector?
    startStep := i
    endStep := i }

/-- Open the frame of a call inside of the current scope. -/
def enter (w : FrameWalk) (s : Step) (i : Nat) (op : CallOp) (o : CallOperands) : FrameWalk :=
  let id := w.frames.length
  let frame := child s i op w.current id o
  { w with
    frames := update w.frames w.current.id (Frame.adopt id) ++ [frame]
    current := ⟨id, frame.depth, s.depth, o.target⟩
    outer := w.current :: w.outer }

/-- Close what the step lies outside of, and let it belong to the scope that is left. -/
def arrive (w : FrameWalk) (s : Step) (i : Nat) : FrameWalk :=
  let (frames, current, outer) := leave s i w.frames w.current w.outer
  { frames := update frames current.id (Frame.spend s.gasCost)
    current, outer
    owners := current.id :: w.owners }

/-- One step of the pass. -/
def advance (w : FrameWalk) (s : Step) (i : Nat) : Except Fault FrameWalk :=
  let w := w.arrive s i
  match CallOp.ofName? s.op with
  | some op => do return w.enter s i op (← s.callOperands op)
  | none => .ok { w with frames := update w.frames w.current.id (Frame.halt s) }

/-- The pass over the steps from position `i` on. -/
def run (w : FrameWalk) (i : Nat) : List Step → Except Fault FrameWalk
  | [] => .ok w
  | s :: rest => do run (← w.advance s i) (i + 1) rest

/-- Close what is open at the end of the trace. -/
def finish (w : FrameWalk) (last : Int) : CallFrames :=
  let opened := w.current :: w.outer
  let frames := opened.foldl (fun fs scope => update fs scope.id (Frame.closeAtEnd last)) w.frames
  ⟨frames, (w.owners.reverse.map Int.ofNat).toArray⟩

end FrameWalk

/-- Reconstruct the frames of a trace. -/
def CallFrames.build (steps : List Step) (tx : Transaction) : Except Fault CallFrames :=
  if steps.isEmpty then .ok CallFrames.empty
  else do
    let last : Int := steps.length - 1
    let w ← (FrameWalk.start tx last).run 0 steps
    return w.finish last

/-- The memory words that reconstruction looked at and could not read, in order. -/
def CallFrames.unreadableWords (steps : List Step) : List String :=
  steps.flatMap fun s =>
    match CallOp.ofName? s.op with
    | some op => if s.readsMemory op then Memory.unreadable s.memory else []
    | none => []

end TraceAudit
