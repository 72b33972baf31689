import TraceAudit.Frame.Basic
import TraceAudit.Value.Basic

/-!
# Validation of frames

Checks of a list of frames from anywhere: parents and children must be in the list, a frame is one
deeper than its parent, and its steps form a range inside of the trace. Defects are reported and
never stop an analysis.
-/

namespace TraceAudit

/-- What is wrong with a frame. -/
inductive FrameDefect where
  | unknownParent (id : Int)
  | unknownChild (id : Int)
  | depth (depth parentDepth : Int)
  | backwards
  | outside (start stop : Int)
deriving DecidableEq, Repr

/-- A defect of the frame with an id. -/
structure FrameIssue where
  frameId : Int
  defect : FrameDefect
deriving DecidableEq, Repr

/-- The wording of a defect. -/
def FrameDefect.message : FrameDefect → String
  | unknownParent id => s!"invalid parentId {id}"
  | unknownChild id => s!"invalid child {id}"
  | depth d p => s!"depth {d} != parent depth {p} + 1"
  | backwards => "endStep < startStep"
  | outside start stop => s!"step range [{start}, {stop}] outside trace"

/-- An issue as a record. -/
def FrameIssue.toValue (i : FrameIssue) : Value :=
  .object [("frame_id", .int i.frameId), ("message", .text i.defect.message)]

namespace Frame

/-- The defects of one frame of a list. -/
def defects (frames : List Frame) (lastStep : Option Int) (f : Frame) : List FrameDefect :=
  let parent := f.parent.bind (withId? frames)
  (match f.parent with
    | some p => if parent.isNone then [.unknownParent p] else []
    | none => [])
  ++ (f.children.filter fun c => (withId? frames c).isNone).map .unknownChild
  ++ (match parent with
    | some p => if f.depth ≠ p.depth + 1 then [.depth f.depth p.depth] else []
    | none => [])
  ++ (if f.endStep < f.startStep then [.backwards] else [])
  ++ (if f.startStep < 0 ∨ lastStep.any (· < f.endStep) then [.outside f.startStep f.endStep]
      else [])

/-- The issues of a list of frames, in its order. -/
def validate (frames : List Frame) (lastStep : Option Int) : List FrameIssue :=
  frames.flatMap fun f => (f.defects frames lastStep).map fun d => ⟨f.id, d⟩

end Frame

end TraceAudit
