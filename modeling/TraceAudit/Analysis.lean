import TraceAudit.Detector.Catalogue
import TraceAudit.Finding.Summary
import TraceAudit.Frame.Build
import TraceAudit.Report
import TraceAudit.Static.Source
import TraceAudit.Step.Ingest

/-!
# Analysis of a trace

An analysis ingests a trace, rebuilds its frames, runs detectors, adds the findings of other tools
and reports. The trace, the transaction and the table of sources may be refused. A detector may fail
without harm to the rest, and a source may be refused without harm to the rest. What still ends an
analysis is a report of another tool that is nested too deeply to be read, and a finding whose place
cannot be written.

`Report.assemble` is what is left to do once steps, frames and sources are there.
-/

namespace TraceAudit

/-- What an analysis is asked to do. -/
structure AnalysisRequest where
  trace : TraceSource
  order : StackOrder := .bottomFirst
  transaction : TransactionSource := .described .null
  sources : Static.SourceTable := .value .null
  /-- Whether frames are rebuilt. -/
  useFrames : Bool := true
  settings : Settings := {}
  detectors : List Detector := Detector.catalogue
  /-- The name of the run in notes and report; nothing where it is to be made up. -/
  runId : Value := .null

/-- What became of the sources: the merger, the number of findings of each source, and notes. -/
structure SourceRun where
  merger : Merger
  counts : Counts
  notes : List Note

namespace SourceRun

/-- Add one source. -/
def add (r : SourceRun) (source : String × Value) : Except Fault SourceRun := do
  let (name, report) := source
  let (findings, notes) ← Static.ofSource name report
  let merger ← r.merger.insertStatic? findings
  let merges := merger.merges.drop r.merger.merges.length
  return {
    merger
    counts := r.counts.put name findings.length
    notes := r.notes ++ notes ++ [.sourceNormalized name findings.length] ++
      merges.map Note.merged }

/-- Add sources to the findings of detectors. -/
def ofSources (detected : List Finding) (sources : Fields) : Except Fault SourceRun := do
  let merger ← Merger.insertDetected? {} detected
  sources.foldlM add { merger, counts := [("detectors", detected.length)], notes := [] }

end SourceRun

namespace Report

/-- The notes on the reconstruction of frames. -/
def frameNotes (steps : List Step) (callFrames : CallFrames) (issues : List FrameIssue) :
    List Note :=
  if steps.isEmpty then []
  else (CallFrames.unreadableWords steps).map Note.unreadableWord ++
    [.framesRebuilt callFrames.frames.length steps.length] ++ issues.map Note.frameDefect

/-- The report on steps with their frames, the runs of detectors and what became of the sources. -/
def ofRuns (steps : List Step) (callFrames : Option CallFrames) (settings : Settings)
    (runs : List DetectorRun) (merged : SourceRun) : Report :=
  let frames := callFrames.getD CallFrames.empty
  let lastStep : Option Int := if steps.isEmpty then none else some (steps.length - 1)
  let issues := Frame.validate frames.frames lastStep
  let findings := merged.merger.findings
  { frames := frames.frames
    stepToFrame := frames.stepToFrame.toList
    frameIssues := issues
    findings
    summary := Summary.ofFindings findings
    topOps := OpcodeProfile.top steps settings.topOpsLimit
    sources := merged.counts
    stepsCount := steps.length
    framesAvailable := callFrames.any CallFrames.available
    detectorsRun := runs.length
    failedDetectors := (runs.filter DetectorRun.failed).map DetectorRun.detector
    mergedCount := merged.merger.mergedCount
    notes :=
      (callFrames.map fun c => frameNotes steps c issues).getD [] ++
      runs.flatMap DetectorRun.allNotes ++ merged.notes ++
      [.completed steps.length frames.frames.length findings.length] }

/-- The report on steps with their frames, if frames were asked for. -/
def assemble (steps : List Step) (callFrames : Option CallFrames) (settings : Settings)
    (detectors : List Detector) (sources : Fields) : Except Fault Report := do
  let context : Context := { steps := steps.toArray, callFrames, settings }
  let (runs, _) := Detector.runAll context { label := "VUL" } detectors
  let merged ← SourceRun.ofSources (runs.flatMap DetectorRun.findings) sources
  return ofRuns steps callFrames settings runs merged

end Report

/-- Whether anything was handed over as a trace. -/
def TraceSource.isGiven : TraceSource → Bool
  | .value .null => false
  | _ => true

/-- Analyze a trace. -/
def analyze (r : AnalysisRequest) : Except Fault Report := do
  let steps ← Step.ingest r.order r.trace
  let tx ← Transaction.ofSource r.transaction
  let callFrames ← if r.useFrames then some <$> CallFrames.build steps tx else .ok none
  let sources ← r.sources.sources
  let report ← Report.assemble steps callFrames r.settings r.detectors sources
  let ingested : List Note := if r.trace.isGiven then [.stepsIngested steps.length] else []
  return { report with
    runId := if r.runId.truthy then some r.runId else none
    notes := ingested ++ report.notes }

end TraceAudit
