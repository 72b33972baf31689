import TraceAudit.Proofs.Detector.Evidence
import TraceAudit.Proofs.Report.Sources
import TraceAudit.Proofs.Step.Ingest

/-!
# The evidence in a report

A report that no other tool contributes to lists what the detectors of this library raise, and with
the frames of the trace at hand all evidence refers to them: the ids of frames are ids of frames of
the report, the numbers of steps are positions of its table of owners, and this table gives each of
the steps to the frame that the evidence names (`evidence_refersTo_of_analyze`).
-/

namespace TraceAudit

variable {c : Context} {ids : IdSequence} {ds : List Detector} {f : Finding} {fs : List Finding}

/-! ### From drafts to findings -/

theorem Detector.exists_finding_of_mem_run {d : Detector} (hd : d ∈ catalogue)
    (hf : f ∈ (d.run c ids).1.findings) :
    ∃ draft ∈ (d.scan c).drafts, ∃ id, f = d.info.finding id draft := by
  rw [run_eq hd, DetectorRun.findings, Scan.outcome] at hf
  cases hfault : (d.scan c).fault with
  | some fault =>
    rw [hfault] at hf
    cases hf
  | none =>
    rw [hfault] at hf
    exact exists_finding_of_mem_findings hf

/-- A finding that detectors raise is a numbered draft of one of them. -/
theorem Detector.exists_finding_of_mem_runAll (hds : ∀ d ∈ ds, d ∈ catalogue)
    (hf : f ∈ (runAll c ids ds).1.flatMap DetectorRun.findings) :
    ∃ d ∈ ds, ∃ draft ∈ (d.scan c).drafts, ∃ id, f = d.info.finding id draft := by
  induction ds generalizing ids with
  | nil => exact nomatch hf
  | cons d ds ih =>
    change f ∈ (d.run c ids).1.findings ++ _ at hf
    rcases List.mem_append.mp hf with hf | hf
    · obtain ⟨draft, hdraft, hfinding⟩ :=
        exists_finding_of_mem_run (hds d List.mem_cons_self) hf
      exact ⟨d, List.mem_cons_self, draft, hdraft, hfinding⟩
    · obtain ⟨d', hd', hdraft⟩ := ih (fun d' hd' => hds d' (List.mem_cons_of_mem d hd')) hf
      exact ⟨d', List.mem_cons_of_mem d hd', hdraft⟩

/-- The evidence of a finding that detectors raise is that of a draft of one of them. -/
theorem Detector.exists_draft_of_mem_runAll (hds : ∀ d ∈ ds, d ∈ catalogue)
    (hf : f ∈ (runAll c ids ds).1.flatMap DetectorRun.findings) :
    ∃ d ∈ ds, ∃ draft ∈ (d.scan c).drafts, f.evidence = .object draft.evidence := by
  obtain ⟨d, hd, draft, hdraft, id, rfl⟩ := exists_finding_of_mem_runAll hds hf
  exact ⟨d, hd, draft, hdraft, rfl⟩

/-! ### Reports without sources -/

namespace Merger

theorem pool_addDetected (m : Merger) (i : Nat) : (m.addDetected i).pool = m.pool := by
  rw [addDetected]
  split
  · rw [enlist, register]
    split <;> rfl
  · rfl

theorem pool_insertDetected (m : Merger) (fs : List Finding) :
    (m.insertDetected fs).pool = m.pool ++ fs := by
  induction fs generalizing m with
  | nil => exact (List.append_nil _).symm
  | cons f fs ih =>
    change (((m.push f).addDetected m.pool.length).insertDetected fs).pool = _
    rw [ih, pool_addDetected, push, List.append_assoc]
    rfl

/-- Nothing but what was detected is listed. -/
theorem mem_of_mem_findings_insertDetected (hf : f ∈ (insertDetected {} fs).findings) : f ∈ fs := by
  obtain ⟨i, -, hget⟩ := List.mem_filterMap.mp hf
  rw [pool_insertDetected] at hget
  exact List.mem_of_getElem? hget

end Merger

/-! ### Analyses -/

/-- **The evidence of a report with frames refers to what exists.** If frames are asked for, the
detectors are of this library and no source is given, the evidence of every finding is one object
that refers to the frames and the table of owners of the report. -/
theorem evidence_refersTo_of_analyze {r : AnalysisRequest} {report : Report}
    (hframes : r.useFrames = true) (hdetectors : ∀ d ∈ r.detectors, d ∈ Detector.catalogue)
    (hsources : r.sources.sources = .ok []) (h : analyze r = .ok report) :
    ∀ f ∈ report.findings,
      ∃ e, f.evidence = .object e ∧ e.RefersTo report.frames report.stepToFrame := by
  obtain ⟨steps, tx, callFrames, sources, merged, notes, hsteps, htx, hbuild, hs, hmerged, rfl⟩ :=
    exists_of_analyze h
  obtain rfl : [] = sources := Except.ok.inj (hsources.symm.trans hs)
  rw [AnalysisRequest.framesOf, if_pos hframes] at hbuild
  obtain ⟨t, hbuilt, hsome⟩ := exists_of_bind_eq_ok hbuild
  cases hsome
  -- ingestion makes indices positions, and reconstruction makes frames with integrity
  have hframed : Context.Framed ⟨steps.toArray, some t, r.settings⟩ t := {
    index := fun i s hget => Step.index_of_ingest hsteps (by simpa using hget)
    callFrames := rfl
    integrity := Nesting.integrity_of_build hbuilt }
  intro f hf
  change f ∈ merged.merger.findings at hf
  rw [SourceRun.eq_foldl_of_ofSources hmerged] at hf
  have hdetected := Merger.mem_of_mem_findings_insertDetected hf
  obtain ⟨d, hd, draft, hdraft, hevidence⟩ :=
    Detector.exists_draft_of_mem_runAll hdetectors hdetected
  exact ⟨draft.evidence, hevidence,
    Detector.refersTo_of_mem_drafts (hdetectors d hd) hframed hdraft⟩

/-- A check of the transaction's sender, then a call, then two writes to one slot. -/
def exposedTrace : List Step := [
  ⟨0, 0, "ORIGIN", 900, 2, 1, [], []⟩,
  ⟨1, 1, "JUMPI", 898, 10, 1, [], []⟩,
  ⟨2, 2, "CALL", 888, 700, 1, ["0x64", "0xbeef", "0x0", "0x0", "0x0", "0x0", "0x0"], []⟩,
  ⟨3, 0, "STOP", 100, 0, 2, [], []⟩,
  ⟨4, 3, "SSTORE", 188, 50, 1, ["0x1", "0x2"], []⟩,
  ⟨5, 4, "SSTORE", 138, 50, 1, ["0x1", "0x3"], []⟩,
  ⟨6, 5, "STOP", 88, 0, 1, [], []⟩]

/-- The numbers of steps and the ids of frames in the evidence of a report. -/
def Report.evidenceNumbers (report : Report) : List (List Int × List Int) :=
  report.findings.map fun f =>
    (f.evidence.firstFields.stepNumbers, f.evidence.firstFields.frameIds)

theorem evidence_refersTo_of_analyze_exposedTrace :
    ∃ report, analyze { trace := .entries (exposedTrace.map .step) } = .ok report ∧
      report.evidenceNumbers = [([2], []), ([2, 4, 5], [0, 1]), ([2, 4, 5, 4, 5], [0]),
        ([0, 1], [0])] ∧
      ∀ f ∈ report.findings,
        ∃ e, f.evidence = .object e ∧ e.RefersTo report.frames report.stepToFrame := by
  have hnumbers : (analyze { trace := .entries (exposedTrace.map .step) }).toOption.any
      (fun report => report.evidenceNumbers = [([2], []), ([2, 4, 5], [0, 1]),
        ([2, 4, 5, 4, 5], [0]), ([0, 1], [0])]) := by decide +kernel
  obtain ⟨report, hreport, hnumbers⟩ := exists_of_any_toOption hnumbers
  exact ⟨report, hreport, of_decide_eq_true hnumbers,
    evidence_refersTo_of_analyze rfl (fun d hd => hd) rfl hreport⟩

end TraceAudit
