import TraceAudit.Fault
import TraceAudit.Frame.Basic
import TraceAudit.Settings
import TraceAudit.Step.Operand
import TraceAudit.Step.Record
import TraceAudit.Step.StorageWrite

/-!
# What detectors look at

The steps of a trace, its frames if they are known, and the settings. Steps are found by position.
In an ingested trace the index of a step is its position; in a trace from elsewhere it may be
anything, and a walk around such an index may leave the trace. It then ends in a fault, except that
a negative position counts from the end of the trace.
-/

namespace TraceAudit

/-- What detectors look at. -/
structure Context where
  steps : Array Step
  callFrames : Option CallFrames := none
  settings : Settings := {}

namespace Context

/-! ### Frames -/

/-- Whether there are frames. -/
def hasFrames (c : Context) : Bool :=
  c.callFrames.any CallFrames.available

/-- The frames. -/
def frames (c : Context) : List Frame :=
  (c.callFrames.map CallFrames.frames).getD []

/-- The id of the frame that the step at a position belongs to. -/
def frameOf (c : Context) (position : Int) : Option Int :=
  c.callFrames.bind fun f => f.frameOf position

/-- The last frame that a call at the given step opened. -/
def openedAt (c : Context) (step : Int) : Option Frame :=
  c.frames.reverse.find? fun f => !f.isRoot && f.startStep == step

/-! ### Storage writes -/

/-- The storage writes of the trace. -/
def writes (c : Context) : List StorageWrite :=
  Step.storageWrites c.steps.toList

/-- The storage writes of one frame, or of no known frame. -/
def writesOf (c : Context) (frame : Option Int) : List StorageWrite :=
  c.writes.filter fun w => c.frameOf w.step = frame

/-- The frames that write storage, in the order of their first writes. -/
def writers (c : Context) : List (Option Int) :=
  (c.writes.map fun w => c.frameOf w.step).eraseDups

/-! ### Steps by position -/

/-- The step at a position, if the position lies in the trace. -/
def step? (c : Context) (position : Int) : Option Step :=
  if 0 ≤ position then c.steps[position.toNat]? else none

/-- The step at a position; a negative one counts from the end. -/
def stepAt (c : Context) (position : Int) : Except Fault Step :=
  match c.step? (if position < 0 then position + c.steps.size else position) with
  | some s => .ok s
  | none => .error .outOfRange

/-- The positions from `start` on and before `stop`, as far as a walk can get that looks at the
step of each: twice around the trace at most, since it ends where it leaves the trace. -/
def positions (c : Context) (start stop : Int) : List Int :=
  (List.range (min (stop - start).toNat (2 * c.steps.size + 1))).map fun (k : Nat) =>
    start + (k : Int)

/-- Walk along positions and keep the steps that pass a test, until there are `count` of them. The
walk ends in a fault where it leaves the trace. -/
def collect (c : Context) (keep : Int → Step → Bool) : Nat → List Int → Except Fault (List Step)
  | 0, _ => .ok []
  | _, [] => .ok []
  | count + 1, i :: rest => do
    let s ← c.stepAt i
    if keep i s then
      let more ← collect c keep count rest
      return s :: more
    else collect c keep (count + 1) rest

end Context

end TraceAudit
