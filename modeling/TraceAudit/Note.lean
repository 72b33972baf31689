import TraceAudit.Fault
import TraceAudit.Finding.Merge
import TraceAudit.Frame.Validate
import TraceAudit.Log.Level
import TraceAudit.Numeral
import TraceAudit.Text.Quoted

/-!
# Notes

What an analysis reports about its own course. A note says what happened; the channel it goes to,
its level, its wording and the details that come with it follow from that.
-/

namespace TraceAudit

open Text

/-- Something that happened in the course of an analysis. -/
inductive Note where
  /-- A trace was ingested. -/
  | stepsIngested (count : Nat)
  /-- A memory word could not be read and counts as zero. -/
  | unreadableWord (word : String)
  /-- Frames were reconstructed. -/
  | framesRebuilt (frames steps : Nat)
  /-- A frame has a defect. -/
  | frameDefect (issue : FrameIssue)
  /-- A panic has another cause than arithmetic. -/
  | otherPanic (code : Nat) (step : Int)
  /-- A detector gave up. -/
  | detectorFailed (detector : String) (fault : Fault)
  /-- A detector found something. -/
  | detectorFound (detector : String) (count : Nat)
  /-- There is no tool of this name. -/
  | unknownTool (source : String)
  /-- The output of a tool cannot be used. -/
  | unusableOutput (source : String) (fault : Fault)
  /-- The output of a tool was normalized. -/
  | sourceNormalized (source : String) (count : Nat)
  /-- A finding was folded into another. -/
  | merged (merge : Merge)
  /-- An analysis came to its end. -/
  | completed (steps frames findings : Nat)
deriving DecidableEq, Repr

namespace Note

/-- The channel that a note goes to. -/
def channel : Note → String
  | stepsIngested _ => "tracesentry.trace.steps"
  | unreadableWord _ => "tracesentry.trace.evm"
  | framesRebuilt _ _ => "tracesentry.trace.frames"
  | otherPanic _ _ => "tracesentry.analyzer.detectors.arithmetic"
  | unknownTool _ | unusableOutput _ _ => "tracesentry.analyzer.static_sources"
  | merged _ => "tracesentry.analyzer.merger"
  | frameDefect _ | detectorFailed _ _ | detectorFound _ _ | sourceNormalized _ _
  | completed _ _ _ => "tracesentry.analyzer.analyzer"

/-- The level of a note. -/
def level : Note → Log.Level
  | frameDefect _ | detectorFailed _ _ | unknownTool _ | unusableOutput _ _ => Log.Level.warning
  | completed _ _ _ => Log.Level.info
  | _ => Log.Level.debug

/-- The wording of a note. -/
def message : Note → String
  | stepsIngested count => s!"Parsed {count} trace steps"
  | unreadableWord word => s!"Unreadable memory word {quoted word} treated as zero"
  | framesRebuilt frames steps => s!"Reconstructed {frames} frames over {steps} steps"
  | frameDefect issue => s!"Frame {issue.frameId} failed validation: {issue.defect.message}"
  | otherPanic code step => s!"Non-arithmetic panic {Numeral.hex code} at step {step}"
  | detectorFailed detector fault => s!"Detector {detector} failed: {fault.message}"
  | detectorFound detector count => s!"Detector {detector} produced {count} findings"
  | unknownTool source => s!"Unknown static source {quoted source} — skipping"
  | unusableOutput source fault => s!"Failed to parse {source} output: {fault.message}"
  | sourceNormalized source count => s!"Normalized {count} {source} findings"
  | merged m =>
    s!"Merged {m.incoming} into {m.existing} under key ({quoted m.key.rule}, {quoted m.key.place})"
  | completed steps frames findings =>
    s!"Trace analysis complete: {steps} steps, {frames} frames, {findings} findings"

/-- The details that come with a note. -/
def details : Note → Fields
  | frameDefect issue => [("frame_id", .int issue.frameId)]
  | detectorFailed detector _ => [("detector", .text detector)]
  | detectorFound detector count =>
    [("detector", .text detector), ("findings_count", .int count)]
  | unknownTool source | unusableOutput source _ => [("source", .text source)]
  | sourceNormalized source count =>
    [("source", .text source), ("findings_count", .int count)]
  | completed _ _ findings => [("findings_count", .int findings)]
  | _ => []

/-- Whether a note comes with the fault that caused it. -/
def carriesFault : Note → Bool
  | detectorFailed _ _ => true
  | _ => false

end Note

end TraceAudit
