import TraceAudit.Analysis
import TraceAudit.Proofs.Faults

/-!
# Analyses that return

An analysis can be refused on its way to the report. `exists_of_analyze` undoes an analysis that was
not: it names the steps, the transaction, the frames, the sources and the merged findings that the
report is made of.

What can be refused is the context that the detectors look at, the table of sources, and the sources
themselves (`analyze_eq`). So two analyses that differ in nothing else are refused alike.
-/

namespace TraceAudit

/-- The frames of an analysis, if frames were asked for. -/
def AnalysisRequest.framesOf (r : AnalysisRequest) (steps : List Step) (tx : Transaction) :
    Except Fault (Option CallFrames) :=
  if r.useFrames then some <$> CallFrames.build steps tx else .ok none

variable {r : AnalysisRequest} {report : Report}

theorem framesOf_bind {steps : List Step} {tx : Transaction}
    (f : Option CallFrames → Except Fault Report) :
    (if r.useFrames then (some <$> CallFrames.build steps tx) >>= f else Except.ok none >>= f) =
      r.framesOf steps tx >>= f := by
  rw [AnalysisRequest.framesOf]
  split <;> rfl

/-- What the detectors of an analysis look at, unless it is refused before they run. -/
def AnalysisRequest.context (r : AnalysisRequest) : Except Fault Context := do
  let steps ← Step.ingest r.order r.trace
  let tx ← Transaction.ofSource r.transaction
  let callFrames ← r.framesOf steps tx
  return { steps := steps.toArray, callFrames, settings := r.settings }

/-- The runs of the detectors of an analysis on a context. -/
def AnalysisRequest.runs (r : AnalysisRequest) (c : Context) : List DetectorRun :=
  (Detector.runAll c { label := "VUL" } r.detectors).1

/-- What the detectors of an analysis raise on a context. -/
def AnalysisRequest.raised (r : AnalysisRequest) (c : Context) : List Finding :=
  (r.runs c).flatMap DetectorRun.findings

/-- The report of an analysis on a context and merged findings. -/
def AnalysisRequest.reportOn (r : AnalysisRequest) (c : Context) (merged : SourceRun) : Report :=
  let report := Report.ofRuns c.steps.toList c.callFrames c.settings (r.runs c) merged
  let ingested : List Note := if r.trace.isGiven then [.stepsIngested c.steps.size] else []
  { report with
    runId := if r.runId.truthy then some r.runId else none
    notes := ingested ++ report.notes }

/-- **Three things can be refused**: the context, the table of sources, and one of the sources. The
rest is the report. -/
theorem analyze_eq (r : AnalysisRequest) :
    analyze r = do
      let c ← r.context
      let sources ← r.sources.sources
      let merged ← SourceRun.ofSources (r.raised c) sources
      return r.reportOn c merged := by
  rw [analyze, AnalysisRequest.context]
  cases Step.ingest r.order r.trace with
  | error fault => rfl
  | ok steps =>
    cases Transaction.ofSource r.transaction with
    | error fault => rfl
    | ok tx =>
      refine (framesOf_bind _).trans ?_
      change _ = (r.framesOf steps tx >>= _) >>= _
      cases r.framesOf steps tx with
      | error fault => rfl
      | ok callFrames =>
        cases hsources : r.sources.sources with
        | error fault => rfl
        | ok sources =>
          change (Report.assemble _ _ _ _ _ >>= _) = (SourceRun.ofSources _ _ >>= _)
          rw [Report.assemble, bind_assoc]
          rfl

/-- A report is made of ingested steps, a known transaction, frames, and sources that were merged
with what the detectors raise; the name of the run and the note on ingestion are all that is
added. -/
theorem exists_of_analyze (h : analyze r = .ok report) :
    ∃ steps tx callFrames sources merged notes,
      Step.ingest r.order r.trace = .ok steps ∧
      Transaction.ofSource r.transaction = .ok tx ∧
      r.framesOf steps tx = .ok callFrames ∧
      r.sources.sources = .ok sources ∧
      SourceRun.ofSources (r.raised ⟨steps.toArray, callFrames, r.settings⟩) sources = .ok merged ∧
      report = { Report.ofRuns steps callFrames r.settings
          (r.runs ⟨steps.toArray, callFrames, r.settings⟩) merged with
        runId := if r.runId.truthy then some r.runId else none
        notes } := by
  rw [analyze_eq] at h
  obtain ⟨c, hc, h⟩ := exists_of_bind_eq_ok h
  obtain ⟨steps, hsteps, hc⟩ := exists_of_bind_eq_ok hc
  obtain ⟨tx, htx, hc⟩ := exists_of_bind_eq_ok hc
  obtain ⟨callFrames, hframes, hc⟩ := exists_of_bind_eq_ok hc
  cases hc
  obtain ⟨sources, hsources, h⟩ := exists_of_bind_eq_ok h
  obtain ⟨merged, hmerged, h⟩ := exists_of_bind_eq_ok h
  cases h
  exact ⟨steps, tx, callFrames, sources, merged, _, hsteps, htx, hframes, hsources, hmerged, rfl⟩

/-- An analysis of which nothing is refused returns. -/
theorem exists_analyze {c : Context} {sources : Fields} {merged : SourceRun}
    (hcontext : r.context = .ok c) (hsources : r.sources.sources = .ok sources)
    (hmerged : SourceRun.ofSources (r.raised c) sources = .ok merged) :
    analyze r = .ok (r.reportOn c merged) := by
  rw [analyze_eq, hcontext, hsources]
  change (SourceRun.ofSources (r.raised c) sources >>= _) = _
  rw [hmerged]
  rfl

/-- The frames of an analysis are none or a reconstruction. -/
theorem eq_none_or_build_of_framesOf {steps : List Step} {tx : Transaction}
    {callFrames : Option CallFrames} (h : r.framesOf steps tx = .ok callFrames) :
    callFrames = none ∨ ∃ c, callFrames = some c ∧ CallFrames.build steps tx = .ok c := by
  rw [AnalysisRequest.framesOf] at h
  split at h
  · cases hbuild : CallFrames.build steps tx with
    | error fault => rw [hbuild] at h; exact nomatch h
    | ok c => rw [hbuild] at h; cases h; exact .inr ⟨c, rfl, rfl⟩
  · cases h
    exact .inl rfl

end TraceAudit
