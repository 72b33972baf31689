import TraceAudit.Opcode

/-!
# Frames

A frame is the scope of one execution context: the transaction itself, or what one call or creation
ran. Frames form a tree; a frame knows its parent and its children by their ids.
-/

namespace TraceAudit

/-- What opened a frame. -/
inductive FrameKind where
  /-- The transaction. -/
  | root
  /-- An instruction that creates a context. -/
  | opened (op : CallOp)
deriving DecidableEq, Repr, Inhabited

/-- How a frame ended. -/
inductive FrameStatus where
  | success
  | failed
  | unknown
deriving DecidableEq, Repr, Inhabited

/-- The scope of one execution context. -/
structure Frame where
  id : Int
  parent : Option Int := none
  depth : Int := 0
  /-- The depth that the trace shows at the step which opened the frame. -/
  entryDepth : Int := 0
  kind : FrameKind := .root
  sender : Option String := none
  target : Option String := none
  value : Option String := none
  input : Option String := none
  selector : Option String := none
  gasSpent : Int := 0
  startStep : Int := 0
  endStep : Int := 0
  status : FrameStatus := .unknown
  /-- The instruction that made the frame fail. -/
  errorKind : Option String := none
  children : List Int := []
deriving DecidableEq, Repr, Inhabited

namespace FrameKind

/-- The name of what opened a frame. -/
def name : FrameKind → String
  | root => "ROOT"
  | opened op => op.name

/-- The kind with the given name. -/
def ofName? (s : String) : Option FrameKind :=
  if s = "ROOT" then some root else (CallOp.ofName? s).map opened

end FrameKind

namespace FrameStatus

/-- The name of a status. -/
def name : FrameStatus → String
  | success => "success"
  | failed => "failed"
  | unknown => "unknown"

/-- The status with the given name. -/
def ofName? (s : String) : Option FrameStatus :=
  [success, failed, unknown].find? fun k => k.name = s

end FrameStatus

/-- Whether the frame is the scope of the transaction. -/
def Frame.isRoot (f : Frame) : Bool :=
  f.parent.isNone

/-- The frames of a trace, and for each of its steps the id of the frame that the step belongs
to. -/
structure CallFrames where
  frames : List Frame
  stepToFrame : Array Int
deriving Repr

namespace CallFrames

/-- No frames at all. -/
def empty : CallFrames := ⟨[], #[]⟩

/-- Whether frames were reconstructed. -/
def available (c : CallFrames) : Bool :=
  !c.frames.isEmpty && !c.stepToFrame.isEmpty

/-- The scope of the transaction. -/
def root? (c : CallFrames) : Option Frame :=
  c.frames.head?

/-- The id of the frame that the step at a position belongs to. -/
def frameOf (c : CallFrames) (position : Int) : Option Int :=
  if 0 ≤ position then c.stepToFrame[position.toNat]? else none

end CallFrames

/-- The last frame with the given id. -/
def Frame.withId? (frames : List Frame) (id : Int) : Option Frame :=
  frames.reverse.find? fun f => f.id == id

end TraceAudit
