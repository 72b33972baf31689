import TraceAudit.Proofs.Analysis
import TraceAudit.Proofs.Finding.Keys
import TraceAudit.Proofs.Finding.Reordering

/-!
# The sources of a report

A report is made from what the detectors raise and from what the sources are found to contain
(`Report.MadeFrom`), and the detectors do not see the sources. Whether findings and sources can be
merged depends on each of them alone (`SourceRun.Mergeable`). So sources that are listed in another
order are neither refused where they were not before, nor do they lead to a report with other
figures (`merging_ignores_order`).
-/

namespace TraceAudit

/-! ### What is found in sources -/

namespace Static

/-- What is found in a source with the notes on it; nothing where reading comes to a fault. -/
def resultOf (source : String × Value) : List Finding × List Note :=
  (ofSource source.1 source.2).toOption.getD ([], [])

/-- What is found in a source. -/
def foundIn (source : String × Value) : List Finding :=
  (resultOf source).1

/-- What is found in each source. -/
def found (sources : Fields) : List (List Finding) :=
  sources.map foundIn

/-- The keys of what is found in a source, if it can be read and they can be written. -/
def keysOf (source : String × Value) : Except Fault (List MergeKey) := do
  let (findings, _) ← ofSource source.1 source.2
  findings.mapM Finding.mergeKey?

theorem resultOf_of_ofSource {source : String × Value} {result : List Finding × List Note}
    (h : ofSource source.1 source.2 = .ok result) : resultOf source = result := by
  rw [resultOf, h]
  rfl

theorem foundIn_of_unknown {name : String} (h : Tool.ofName? name = none) (report : Value) :
    foundIn (name, report) = [] := by
  rw [foundIn, resultOf, ofSource, h]
  rfl

/-- What is found in a source of a known tool is what the tool makes of the report, a missing report
being refused like any other that holds no entries. -/
theorem foundIn_of_ofName? {t : Tool} {name : String} (h : Tool.ofName? name = some t)
    (report : Value) :
    foundIn (name, report) = (t.normalize report).toOption.getD [] := by
  rw [foundIn, resultOf, ofSource, h]
  dsimp only
  split
  case h_1 => cases t <;> rfl
  case h_2 =>
    cases t.normalize report with
    | ok findings => rfl
    | error fault =>
      dsimp only
      split <;> rfl

end Static

/-- Set the number of findings of each source. -/
def Counts.putFound (counts : Counts) (sources : Fields) : Counts :=
  sources.foldl (fun counts s => counts.put s.1 (Static.foundIn s).length) counts

/-! ### Adding sources -/

namespace SourceRun

variable {detected : List Finding} {sources sources' : Fields} {run : SourceRun}

/-- What has become of the sources when one more is added that can be. -/
def gain (r : SourceRun) (source : String × Value) : SourceRun :=
  let (findings, notes) := Static.resultOf source
  let merger := r.merger.insertStatic findings
  let merges := merger.merges.drop r.merger.merges.length
  { merger
    counts := r.counts.put source.1 findings.length
    notes := r.notes ++ notes ++ [.sourceNormalized source.1 findings.length] ++
      merges.map Note.merged }

/-- A source is added as soon as it can be read and its keys can be written. -/
theorem add_eq (r : SourceRun) (source : String × Value) :
    r.add source = (Static.keysOf source).map fun _ => r.gain source := by
  rw [add, Static.keysOf]
  cases h : Static.ofSource source.1 source.2 with
  | error fault => rfl
  | ok result =>
    change (r.merger.insertStatic? result.1 >>= _) = (result.1.mapM Finding.mergeKey?).map _
    rw [Merger.insertStatic?_eq, gain, Static.resultOf_of_ofSource h]
    cases result.1.mapM Finding.mergeKey? <;> rfl

/-- The findings of detectors before sources are added. -/
def ofDetected (detected : List Finding) : SourceRun where
  merger := Merger.insertDetected {} detected
  counts := [("detectors", detected.length)]
  notes := []

/-- **Sources are added as soon as all keys can be written.** -/
theorem ofSources_eq (detected : List Finding) (sources : Fields) :
    ofSources detected sources = do
      let _ ← detected.mapM Finding.mergeKey?
      let _ ← sources.mapM Static.keysOf
      return sources.foldl gain (ofDetected detected) := by
  rw [ofSources, Merger.insertDetected?_eq]
  cases detected.mapM Finding.mergeKey? with
  | error fault => rfl
  | ok keys =>
    change sources.foldlM add (ofDetected detected) = (_ >>= _)
    rw [foldlM_eq_map add_eq]
    cases sources.mapM Static.keysOf <;> rfl

/-- The keys of all findings can be written, and all sources can be read. -/
structure Mergeable (detected : List Finding) (sources : Fields) : Prop where
  detected : ∀ f ∈ detected, ∃ key, f.mergeKey? = .ok key
  sources : ∀ s ∈ sources, ∃ keys, Static.keysOf s = .ok keys

/-- **Findings and sources are merged exactly if they are mergeable**, one by one. -/
theorem exists_ofSources_iff :
    (∃ run, ofSources detected sources = .ok run) ↔ Mergeable detected sources := by
  rw [ofSources_eq]
  constructor
  · rintro ⟨run, h⟩
    obtain ⟨keys, hdetected, h⟩ := exists_of_bind_eq_ok h
    obtain ⟨keys', hsources, -⟩ := exists_of_bind_eq_ok h
    exact ⟨exists_mapM_eq_ok_iff.mp ⟨keys, hdetected⟩, exists_mapM_eq_ok_iff.mp ⟨keys', hsources⟩⟩
  · rintro ⟨hdetected, hsources⟩
    obtain ⟨keys, hdetected⟩ := exists_mapM_eq_ok_iff.mpr hdetected
    obtain ⟨keys', hsources⟩ := exists_mapM_eq_ok_iff.mpr hsources
    exact ⟨_, by rw [hdetected, hsources]; rfl⟩

theorem eq_foldl_of_ofSources (h : ofSources detected sources = .ok run) :
    run = sources.foldl gain (ofDetected detected) := by
  rw [ofSources_eq] at h
  obtain ⟨-, -, h⟩ := exists_of_bind_eq_ok h
  obtain ⟨-, -, h⟩ := exists_of_bind_eq_ok h
  exact (Except.ok.inj h).symm

/-- Sources that are mergeable are so in any order. -/
theorem Mergeable.perm (h : Mergeable detected sources) (hperm : sources.Perm sources') :
    Mergeable detected sources' :=
  ⟨h.detected, fun s hs => h.sources s (hperm.mem_iff.mpr hs)⟩

theorem merger_foldl_gain (sources : Fields) (run : SourceRun) :
    (sources.foldl gain run).merger =
      (Static.found sources).foldl Merger.insertStatic run.merger := by
  induction sources generalizing run with
  | nil => rfl
  | cons s sources ih => exact ih (run.gain s)

theorem counts_foldl_gain (sources : Fields) (run : SourceRun) :
    (sources.foldl gain run).counts = run.counts.putFound sources := by
  induction sources generalizing run with
  | nil => rfl
  | cons s sources ih => exact ih (run.gain s)

/-- The sources are added to the findings of the detectors one after the other. -/
theorem merger_ofSources (h : ofSources detected sources = .ok run) :
    run.merger = Merger.ofBatches (Merging.batches detected (Static.found sources)) := by
  rw [eq_foldl_of_ofSources h, merger_foldl_gain, Merger.ofBatches_batches]
  rfl

theorem counts_ofSources (h : ofSources detected sources = .ok run) :
    run.counts = Counts.putFound [("detectors", detected.length)] sources := by
  rw [eq_foldl_of_ofSources h, counts_foldl_gain]
  rfl

end SourceRun

/-! ### What a report is made from -/

/-- What the detectors of an analysis raise, unless it is refused before they run. -/
def AnalysisRequest.detected (r : AnalysisRequest) : Except Fault (List Finding) := do
  let steps ← Step.ingest r.order r.trace
  let tx ← Transaction.ofSource r.transaction
  let callFrames ← r.framesOf steps tx
  let context : Context := { steps := steps.toArray, callFrames, settings := r.settings }
  return (Detector.runAll context { label := "VUL" } r.detectors).1.flatMap DetectorRun.findings

/-- The findings and figures of a report come from detectors that raised `detected` and from
`sources`. -/
structure Report.MadeFrom (report : Report) (detected : List Finding) (sources : Fields) :
    Prop where
  findings : report.findings = Finding.mergeAll detected (Static.found sources)
  summary : report.summary = Summary.ofFindings report.findings
  total : report.findings.length + report.mergedCount =
    detected.length + (Static.found sources).flatten.length
  sources : report.sources = Counts.putFound [("detectors", detected.length)] sources

variable {r : AnalysisRequest} {report : Report} {detected : List Finding} {sources : Fields}

theorem AnalysisRequest.detected_eq (r : AnalysisRequest) :
    r.detected = r.context.map r.raised := by
  rw [detected, context]
  cases Step.ingest r.order r.trace with
  | error fault => rfl
  | ok steps =>
    cases Transaction.ofSource r.transaction with
    | error fault => rfl
    | ok tx =>
      change (r.framesOf steps tx >>= _) = (r.framesOf steps tx >>= _).map _
      cases r.framesOf steps tx <;> rfl

theorem madeFrom_of_ofSources {run : SourceRun} (h : SourceRun.ofSources detected sources = .ok run)
    (hfindings : report.findings = run.merger.findings)
    (hmerged : report.mergedCount = run.merger.mergedCount)
    (hcounts : report.sources = run.counts)
    (hsummary : report.summary = Summary.ofFindings report.findings) :
    report.MadeFrom detected sources where
  findings := by
    rw [hfindings, SourceRun.merger_ofSources h, Merger.ofBatches_batches, Finding.mergeAll]
  summary := hsummary
  total := by
    have hshows := Merger.shows_batches detected (Static.found sources)
    rw [← Merging.length_inTurn, ← hshows.total, hfindings, hmerged, SourceRun.merger_ofSources h]
  sources := hcounts.trans (SourceRun.counts_ofSources h)

/-- The report of an analysis is made from what its detectors raise and from its sources. -/
theorem madeFrom_of_analyze (h : analyze r = .ok report) :
    ∃ detected sources, r.detected = .ok detected ∧ r.sources.sources = .ok sources ∧
      report.MadeFrom detected sources := by
  rw [analyze_eq] at h
  obtain ⟨c, hcontext, h⟩ := exists_of_bind_eq_ok h
  obtain ⟨sources, hsources, h⟩ := exists_of_bind_eq_ok h
  obtain ⟨merged, hmerged, h⟩ := exists_of_bind_eq_ok h
  cases h
  refine ⟨r.raised c, sources, ?_, hsources, madeFrom_of_ofSources hmerged rfl rfl rfl rfl⟩
  rw [r.detected_eq, hcontext]
  rfl

/-- **An analysis returns exactly if** its detectors run, its sources are a table, and both are
mergeable. -/
theorem exists_analyze_iff : (∃ report, analyze r = .ok report) ↔
    ∃ detected sources, r.detected = .ok detected ∧ r.sources.sources = .ok sources ∧
      SourceRun.Mergeable detected sources := by
  rw [r.detected_eq]
  constructor
  · rintro ⟨report, h⟩
    rw [analyze_eq] at h
    obtain ⟨c, hcontext, h⟩ := exists_of_bind_eq_ok h
    obtain ⟨sources, hsources, h⟩ := exists_of_bind_eq_ok h
    obtain ⟨merged, hmerged, -⟩ := exists_of_bind_eq_ok h
    refine ⟨_, sources, ?_, hsources, SourceRun.exists_ofSources_iff.mp ⟨merged, hmerged⟩⟩
    rw [hcontext]
    rfl
  · rintro ⟨detected, sources, hdetected, hsources, hmergeable⟩
    obtain ⟨c, hcontext, rfl⟩ := exists_of_map_eq_ok hdetected
    obtain ⟨merged, hmerged⟩ := SourceRun.exists_ofSources_iff.mpr hmergeable
    exact ⟨_, exists_analyze hcontext hsources hmerged⟩

/-! ### The order of the sources -/

/-- Two tables list the same sources, in whatever order. -/
def Static.SourceTable.SameSources (t t' : SourceTable) : Prop :=
  ∃ sources sources', t.sources = .ok sources ∧ t'.sources = .ok sources' ∧ sources.Perm sources'

/-- Sources in another order are found to contain the same. -/
theorem Static.flatten_found_perm {sources sources' : Fields} (h : sources.Perm sources') :
    (found sources).flatten.Perm (found sources').flatten :=
  (h.map foundIn).flatten

/-- Reports that are made from the same findings have the same figures. -/
theorem sameReport_of_madeFrom {report' : Report} {sources' : Fields} (h : sources.Perm sources')
    (hmade : report.MadeFrom detected sources) (hmade' : report'.MadeFrom detected sources') :
    SameReport report.findings report'.findings ∧ report.summary = report'.summary ∧
      report.mergedCount = report'.mergedCount := by
  have hfound := Static.flatten_found_perm h
  have hsame : SameReport report.findings report'.findings := by
    rw [hmade.findings, hmade'.findings]
    exact Finding.sameReport_mergeAll detected hfound
  refine ⟨hsame, ?_, ?_⟩
  · rw [hmade.summary, hmade'.summary, hsame.summary]
  · -- as many findings come in, and as many are listed
    have htotal := hmade.total
    have htotal' := hmade'.total
    have hlength := hsame.length
    rw [← hfound.length_eq] at htotal'
    omega

/-- **The order of the tools does not matter to the figures.** Findings of tools that are merged in
another order make for the same number of findings, keys, severities and targets, and an analysis
whose sources are listed in another order returns a report with the same figures. -/
theorem merging_ignores_order :
    (∀ (detected : List Finding) (sources sources' : List (List Finding)),
      sources.flatten.Perm sources'.flatten →
        SameReport (Finding.mergeAll detected sources) (Finding.mergeAll detected sources')) ∧
    ∀ (r : AnalysisRequest) (table : Static.SourceTable) (report : Report),
      r.sources.SameSources table → analyze r = .ok report →
        ∃ report', analyze { r with sources := table } = .ok report' ∧
          SameReport report.findings report'.findings ∧ report.summary = report'.summary ∧
          report.mergedCount = report'.mergedCount := by
  refine ⟨fun detected sources sources' h => Finding.sameReport_mergeAll detected h, ?_⟩
  rintro r table report ⟨sources, sources', hsources, hsources', hperm⟩ h
  obtain ⟨detected, s, hdetected, hs, hmade⟩ := madeFrom_of_analyze h
  obtain rfl : sources = s := Except.ok.inj (hsources.symm.trans hs)
  obtain ⟨d, s, hd, hs, hmergeable⟩ := exists_analyze_iff.mp ⟨report, h⟩
  obtain rfl : detected = d := Except.ok.inj (hdetected.symm.trans hd)
  obtain rfl : sources = s := Except.ok.inj (hsources.symm.trans hs)
  -- the detectors of the other analysis raise the same, so it is not refused either
  have hdetected' : AnalysisRequest.detected { r with sources := table } = .ok detected := hdetected
  obtain ⟨report', h'⟩ : ∃ report', analyze { r with sources := table } = .ok report' :=
    exists_analyze_iff.mpr ⟨detected, sources', hdetected', hsources', hmergeable.perm hperm⟩
  obtain ⟨detected', s', hd, hs', hmade'⟩ := madeFrom_of_analyze h'
  obtain rfl : detected = detected' := Except.ok.inj (hdetected'.symm.trans hd)
  obtain rfl : sources' = s' := Except.ok.inj (hsources'.symm.trans hs')
  exact ⟨report', h', sameReport_of_madeFrom hperm hmade hmade'⟩

/-- Reports of two tools on one defect. -/
def twoTools : List (Value × Value) := [
  (.text "slither",
    .list [.object [("check", .text "reentrancy-eth"), ("impact", .text "High")]]),
  (.text "mythril",
    .list [.object [("title", .text "State change after call: reentrancy"),
      ("severity", .text "Medium")]])]

/-- An analysis of one read of the transaction's sender, with sources. -/
def originRequest (sources : List (Value × Value)) : AnalysisRequest where
  trace := .entries [.step ⟨0, 0, "ORIGIN", 0, 2, 1, [], []⟩]
  sources := .pairs sources
  detectors := [Detector.originRead]

theorem merging_ignores_order_twoTools :
    SameReport
      (Finding.mergeAll [] [[default], [{ (default : Finding) with severity := .low }]])
      (Finding.mergeAll [] [[{ (default : Finding) with severity := .low }], [default]]) ∧
    ∃ report report', analyze (originRequest twoTools) = .ok report ∧
      analyze (originRequest twoTools.reverse) = .ok report' ∧
      SameReport report.findings report'.findings ∧ report.summary = report'.summary ∧
      report.mergedCount = report'.mergedCount ∧ report.mergedCount = 1 := by
  obtain ⟨hmerging, hanalysis⟩ := merging_ignores_order
  have hone : (analyze (originRequest twoTools)).toOption.any fun report =>
      report.mergedCount = 1 := by decide +kernel
  obtain ⟨report, hreport, hone⟩ := exists_of_any_toOption hone
  have hsame : (Static.SourceTable.pairs twoTools).SameSources (.pairs twoTools.reverse) :=
    ⟨_, _, rfl, rfl, List.Perm.swap ..⟩
  obtain ⟨report', hreport', hfindings, hsummary, hmerged⟩ :=
    hanalysis (originRequest twoTools) (.pairs twoTools.reverse) report hsame hreport
  exact ⟨hmerging _ _ _ (List.Perm.swap ..), report, report', hreport, hreport', hfindings,
    hsummary, hmerged, of_decide_eq_true hone⟩

end TraceAudit
