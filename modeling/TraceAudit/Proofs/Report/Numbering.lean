import TraceAudit.Proofs.Detector.Reports
import TraceAudit.Proofs.Report.Identity

/-!
# Numbers without gaps

A detector draws an identifier for each finding as it makes the finding, deep in its loops. Still
each identifier that it draws is in what it returns, in the order in which they were drawn, as its
program follows a scan (`Detector.follows_scan`); and if a fault ends it, it has drawn none. So
detectors that run one after the other number their findings in the order in which they report them,
and the sequence has issued as many identifiers as there are findings (`Detector.numbered_runAll`).
What a detector finds does not depend on the numbers (`Detector.unnumbered_runAll`), and numbers are
all that detectors share.

Merging leaves these findings at the beginning of a report (`numbers_without_gaps`).
-/

namespace TraceAudit

variable {c : Context} {ids ids' : IdSequence} {ds : List Detector} {d : Detector}

/-- The identifiers with the numbers from one up to a count, padded to a width. -/
def IdSequence.upTo (label : String) (width count : Nat) : List String :=
  (List.range count).map fun k =>
    label ++ "-" ++ String.ofList (Numeral.decimalPadded width (k + 1))

theorem IdSequence.draw_new (label : String) (width count : Nat) :
    IdSequence.draw { label, width } count = upTo label width count := by
  refine List.map_congr_left fun k _ => ?_
  rw [Nat.zero_add, nth]

namespace Detector

/-! ### One detector -/

/-- A detector reports its drafts, numbered in order; one that is ended by a fault has none. -/
theorem findings_run (hd : d ∈ catalogue) (h : c.Indexed) (ids : IdSequence) :
    (d.run c ids).1.findings = d.info.findings ids (d.scan c).drafts := by
  have hfault := fault_scan hd h
  rw [run_eq hd, DetectorRun.findings, Scan.outcome]
  by_cases hfails : d.FailsOn c
  · rw [if_pos hfails] at hfault
    rw [hfault]
    rfl
  · rw [if_neg hfails] at hfault
    rw [hfault]

/-- A detector reports as many findings as it uses up numbers. -/
theorem numbered_run (hd : d ∈ catalogue) (h : c.Indexed) (ids : IdSequence) :
    (d.run c ids).1.findings.map Finding.id = ids.draw (d.run c ids).1.findings.length ∧
      (d.run c ids).2 = ids.skip (d.run c ids).1.findings.length := by
  have hids := DetectorInfo.ids_findings d.info ids (d.scan c).drafts
  have hlength := congrArg List.length hids
  rw [List.length_map, IdSequence.length_draw] at hlength
  rw [findings_run hd h, run_eq hd, hids, hlength]
  exact ⟨rfl, rfl⟩

theorem unnumbered_run (hd : d ∈ catalogue) (h : c.Indexed) (ids ids' : IdSequence) :
    (d.run c ids).1.findings.map Finding.unnumbered =
      (d.run c ids').1.findings.map Finding.unnumbered := by
  rw [findings_run hd h, findings_run hd h, DetectorInfo.map_unnumbered_findings,
    DetectorInfo.map_unnumbered_findings]

/-! ### Detectors one after the other -/

/-- What detectors report that run one after the other. -/
def raised (c : Context) (ids : IdSequence) (ds : List Detector) : List Finding :=
  (runAll c ids ds).1.flatMap DetectorRun.findings

/-- What detectors report is numbered without gaps, from where their sequence stands on to where
they leave it. -/
theorem numbered_runAll (hds : ∀ d ∈ ds, d ∈ catalogue) (h : c.Indexed) (ids : IdSequence) :
    (raised c ids ds).map Finding.id = ids.draw (raised c ids ds).length ∧
      (runAll c ids ds).2 = ids.skip (raised c ids ds).length := by
  induction ds generalizing ids with
  | nil => exact ⟨rfl, rfl⟩
  | cons d ds ih =>
    obtain ⟨hids, hleft⟩ := numbered_run (hds d List.mem_cons_self) h ids
    obtain ⟨hrest, hend⟩ := ih (fun d' hd' => hds d' (List.mem_cons_of_mem d hd')) (d.run c ids).2
    have hraised : raised c ids (d :: ds) =
        (d.run c ids).1.findings ++ raised c (d.run c ids).2 ds := rfl
    have hstate : (runAll c ids (d :: ds)).2 = (runAll c (d.run c ids).2 ds).2 := rfl
    rw [hraised, hstate, List.map_append, List.length_append, IdSequence.draw_add, hids, hrest,
      hend, hleft, IdSequence.skip_skip]
    exact ⟨rfl, rfl⟩

/-- No detector sees what others find. -/
theorem unnumbered_runAll (hds : ∀ d ∈ ds, d ∈ catalogue) (h : c.Indexed)
    (ids ids' : IdSequence) :
    (runAll c ids ds).1.map (fun r => r.findings.map Finding.unnumbered) =
      ds.map fun d => (d.run c ids').1.findings.map Finding.unnumbered := by
  induction ds generalizing ids with
  | nil => rfl
  | cons d ds ih =>
    have hcons : (runAll c ids (d :: ds)).1 =
        (d.run c ids).1 :: (runAll c (d.run c ids).2 ds).1 := rfl
    rw [hcons, List.map_cons, List.map_cons, unnumbered_run (hds d List.mem_cons_self) h ids ids',
      ih fun d' hd' => hds d' (List.mem_cons_of_mem d hd')]

end Detector

/-! ### Analyses -/

variable {r : AnalysisRequest} {report : Report} {detected : List Finding}

/-- The detectors of this library number what they raise in an analysis from one on. -/
theorem map_id_detected (hdetectors : ∀ d ∈ r.detectors, d ∈ Detector.catalogue)
    (h : r.detected = .ok detected) :
    detected.map Finding.id = IdSequence.upTo "VUL" 4 detected.length := by
  rw [r.detected_eq] at h
  obtain ⟨c, hcontext, rfl⟩ := exists_of_map_eq_ok h
  rw [← IdSequence.draw_new]
  exact (Detector.numbered_runAll hdetectors (AnalysisRequest.indexed_context hcontext) _).1

/-- **Numbers without gaps.** Detectors of this library that run one after the other on one context,
in any order and with any repetitions, number what they report from one on, the sequence tells how
many findings there are, and each detector finds what it finds alone. An analysis reports these
findings first, in this order and with their numbers, whatever they absorb. -/
theorem numbers_without_gaps :
    (∀ (c : Context) (label : String) (width : Nat) (ds : List Detector), c.Indexed →
      (∀ d ∈ ds, d ∈ Detector.catalogue) →
        (Detector.raised c { label, width } ds).map Finding.id =
          IdSequence.upTo label width (Detector.raised c { label, width } ds).length ∧
        (Detector.runAll c { label, width } ds).2.issued =
          (Detector.raised c { label, width } ds).length ∧
        ∀ alone : IdSequence,
          (Detector.runAll c { label, width } ds).1.map
              (fun run => run.findings.map Finding.unnumbered) =
            ds.map fun d => (d.run c alone).1.findings.map Finding.unnumbered) ∧
    ∀ (r : AnalysisRequest) (report : Report), (∀ d ∈ r.detectors, d ∈ Detector.catalogue) →
      analyze r = .ok report →
        ∃ detected sources, r.detected = .ok detected ∧ r.sources.sources = .ok sources ∧
          (report.findings.take detected.length).map Finding.id =
            IdSequence.upTo "VUL" 4 detected.length ∧
          ∀ (k : Nat) (f : Finding), detected[k]? = some f →
            ∃ gs, report.findings[k]? = some (f.absorbAll gs) ∧
              ∀ g ∈ gs, g ∈ (Static.found sources).flatten ∧ g.mergeKey = f.mergeKey := by
  refine ⟨fun c label width ds hindexed hds => ?_, fun r report hdetectors h => ?_⟩
  · obtain ⟨hids, hleft⟩ := Detector.numbered_runAll hds hindexed { label, width }
    refine ⟨hids.trans (IdSequence.draw_new label width _), ?_, fun alone =>
      Detector.unnumbered_runAll hds hindexed { label, width } alone⟩
    rw [hleft]
    exact Nat.zero_add _
  · obtain ⟨detected, sources, hdetected, hsources, hmade⟩ := madeFrom_of_analyze h
    refine ⟨detected, sources, hdetected, hsources, ?_, fun k f hf => ?_⟩
    · rw [hmade.findings, Finding.take_map_id_mergeAll, map_id_detected hdetectors hdetected]
    · rw [hmade.findings]
      exact ⟨_, Finding.getElem?_mergeAll hf, fun g hg =>
        ⟨Merging.mem_of_mem_absorbedInto hg, Merging.mergeKey_eq_of_mem_absorbedInto hf hg⟩⟩

/-- A call that nothing checks, and a read of the transaction's sender. -/
def carelessTrace : List Step := [
  ⟨0, 0, "CALL", 900, 700, 1, ["0x64", "0xbeef", "0x0", "0x0", "0x0", "0x0", "0x0"], []⟩,
  ⟨1, 1, "ORIGIN", 100, 2, 1, [], []⟩]

/-- An analysis of this trace with a tool that reports both, too. -/
def carelessRequest : AnalysisRequest where
  trace := .entries (carelessTrace.map .step)
  sources := .pairs [(.text "slither", .list [
    .object [("check", .text "unchecked-lowlevel"), ("impact", .text "High")],
    .object [("check", .text "tx-origin"), ("impact", .text "Medium")]])]

theorem numbers_without_gaps_carelessTrace :
    (Detector.raised ⟨carelessTrace.toArray, none, {}⟩ { label := "T", width := 2 }
        [.originRead, .uncheckedCall, .originRead]).map Finding.id = ["T-01", "T-02", "T-03"] ∧
      ∃ report, analyze carelessRequest = .ok report ∧ report.mergedCount = 1 ∧
        ∃ detected, carelessRequest.detected = .ok detected ∧
          (report.findings.take detected.length).map Finding.id =
            IdSequence.upTo "VUL" 4 detected.length := by
  obtain ⟨hruns, hanalyses⟩ := numbers_without_gaps
  have hsteps : Step.ingest .bottomFirst (.entries (carelessTrace.map .step)) =
      .ok carelessTrace := rfl
  have hcatalogue : ∀ d ∈ [Detector.originRead, .uncheckedCall, .originRead],
      d ∈ Detector.catalogue := by
    simp [Detector.catalogue]
  obtain ⟨hids, -⟩ := hruns ⟨carelessTrace.toArray, none, {}⟩ "T" 2
    [.originRead, .uncheckedCall, .originRead] (Context.indexed_of_ingest hsteps none {}) hcatalogue
  have hmerged : (analyze carelessRequest).toOption.any fun report => report.mergedCount = 1 := by
    decide +kernel
  obtain ⟨report, hreport, hmerged⟩ := exists_of_any_toOption hmerged
  obtain ⟨detected, sources, hdetected, -, hnumbers, -⟩ :=
    hanalyses carelessRequest report (fun d hd => hd) hreport
  exact ⟨hids.trans rfl, report, hreport, of_decide_eq_true hmerged, detected, hdetected, hnumbers⟩

end TraceAudit
