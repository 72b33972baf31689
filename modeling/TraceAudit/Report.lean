import TraceAudit.Finding.Summary
import TraceAudit.Frame.Record
import TraceAudit.Note
import TraceAudit.Step.Profile

/-!
# Reports

The result of an analysis: the frames of the trace, the merged findings with their summary, the
most expensive instructions, how many findings each source contributed, and figures on the run.
-/

namespace TraceAudit

/-- Numbers by name, in the order in which the names were first set. -/
abbrev Counts := List (String × Nat)

namespace Counts

/-- Set a number: a new name goes to the end, an old one keeps its place. -/
def put (counts : Counts) (name : String) (n : Nat) : Counts :=
  match counts with
  | [] => [(name, n)]
  | (m, k) :: rest => if m = name then (m, n) :: rest else (m, k) :: put rest name n

/-- The sum of all numbers. -/
def total (counts : Counts) : Nat :=
  counts.foldr (fun c n => c.2 + n) 0

/-- Numbers by name as a record. -/
def toValue (counts : Counts) : Value :=
  .object (counts.map fun c => (c.1, .int c.2))

end Counts

/-- The result of an analysis. -/
structure Report where
  frames : List Frame
  stepToFrame : List Int
  frameIssues : List FrameIssue
  findings : List Finding
  summary : Summary
  topOps : List OpcodeProfile
  /-- The number of findings from the detectors and from each source. -/
  sources : Counts
  /-- The name of the run, unless it is to be made up. -/
  runId : Option Value := none
  stepsCount : Nat
  framesAvailable : Bool
  detectorsRun : Nat
  /-- The ids of the detectors that gave up, in the order in which they ran. -/
  failedDetectors : List String
  mergedCount : Nat
  /-- What happened on the way. -/
  notes : List Note

namespace Report

/-- The figures on the run. -/
def metadata (r : Report) (runId : Value) : Fields := [
  ("run_id", runId), ("steps_count", .int r.stepsCount),
  ("frames_available", .bool r.framesAvailable), ("detectors_run", .int r.detectorsRun),
  ("failed_detectors", .ofTexts r.failedDetectors), ("merged_count", .int r.mergedCount),
  ("total_findings_after_merge", .int r.findings.length)]

/-- A report as a record, with the name of its run. -/
def toFields (r : Report) (runId : Value) : Fields := [
  ("frames", .list (r.frames.map Frame.toValue)), ("step_to_frame", .ofInts r.stepToFrame),
  ("frame_issues", .list (r.frameIssues.map FrameIssue.toValue)),
  ("findings", .list (r.findings.map Finding.toValue)), ("summary", r.summary.toValue),
  ("top_ops", .list (r.topOps.map OpcodeProfile.toValue)), ("sources", r.sources.toValue),
  ("metadata", .object (r.metadata runId))]

end Report

end TraceAudit
