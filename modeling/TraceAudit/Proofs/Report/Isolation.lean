import TraceAudit.Proofs.Report.Numbering

/-!
# Detectors that give up

A detector that gives up before it has drawn an identifier reports nothing and leaves the sequence
of identifiers as it is. So those around it run as if it were not there: but for the runs that
failed, the runs of a list of detectors are the runs of the detectors that do not give up
(`Detector.filter_runAll`), and what the list raises is what they raise (`Detector.raised_filter`).

A report sees of its detectors only what they raise, how many there are and which of them failed. So
an analysis with detectors that give up is the analysis without them, but for these two figures and
the notes (`giving_up_is_isolated`).
-/

namespace TraceAudit

variable {c : Context} {ids : IdSequence} {ds : List Detector} {d : Detector}
  {fails : Detector → Bool}

/-! ### One detector -/

namespace Detector

/-- A detector gives up on a context: wherever its sequence of identifiers stands, it comes to a
fault and has drawn nothing. -/
def GivesUp (d : Detector) (c : Context) : Prop :=
  ∀ l, ∃ fault l', (d.detect c).runOn l = (.error fault, l') ∧ l'.ids = l.ids

/-- A detector that gives up fails, and leaves the sequence of identifiers as it is. -/
theorem GivesUp.run (h : d.GivesUp c) (ids : IdSequence) :
    (d.run c ids).1.failed = true ∧ (d.run c ids).2 = ids := by
  obtain ⟨fault, l', hrun, hids⟩ := h { ids }
  rw [Detector.run, DetectorRun.failed, hrun]
  exact ⟨rfl, hids⟩

end Detector

/-- A detector that failed reports nothing. -/
theorem DetectorRun.findings_of_failed {run : DetectorRun} (h : run.failed = true) :
    run.findings = [] := by
  rw [DetectorRun.failed] at h
  rw [DetectorRun.findings]
  split at h
  · cases h
  · rfl

/-- The runs that did not fail report all that is reported. -/
theorem DetectorRun.flatMap_findings_filter (runs : List DetectorRun) :
    (runs.filter fun run => !run.failed).flatMap DetectorRun.findings =
      runs.flatMap DetectorRun.findings := by
  induction runs with
  | nil => rfl
  | cons run runs ih =>
    rw [List.filter_cons, List.flatMap_cons]
    cases hfailed : run.failed with
    | true =>
      rw [findings_of_failed hfailed]
      exact ih
    | false =>
      change run.findings ++ (runs.filter fun run => !run.failed).flatMap DetectorRun.findings = _
      rw [ih]

/-! ### Detectors one after the other -/

namespace Detector

/-- Those of these detectors that are marked by `fails` give up on a context. -/
def Marks (fails : Detector → Bool) (ds : List Detector) (c : Context) : Prop :=
  ∀ d ∈ ds, fails d = true → d.GivesUp c

/-- **Detectors that give up do not show in the runs of the others.** The others run on the same
sequence of identifiers as they do alone. -/
theorem filter_runAll (h : Marks fails ds c) (ids : IdSequence) :
    (runAll c ids ds).1.filter (fun run => !run.failed) =
      (runAll c ids (ds.filter fun d => !fails d)).1.filter fun run => !run.failed := by
  induction ds generalizing ids with
  | nil => rfl
  | cons d ds ih =>
    have hrest := ih fun d' hd' => h d' (List.mem_cons_of_mem d hd')
    change ((d.run c ids).1 :: (runAll c (d.run c ids).2 ds).1).filter _ = _
    rw [List.filter_cons, List.filter_cons]
    cases hfails : fails d with
    | true =>
      obtain ⟨hfailed, hids⟩ := (h d List.mem_cons_self hfails).run ids
      rw [hfailed, hids]
      exact hrest ids
    | false =>
      change _ = ((d.run c ids).1 ::
        (runAll c (d.run c ids).2 (ds.filter fun d => !fails d)).1).filter _
      rw [List.filter_cons, hrest]

/-- Detectors that give up do not show in what is raised. -/
theorem raised_filter (h : Marks fails ds c) (ids : IdSequence) :
    raised c ids (ds.filter fun d => !fails d) = raised c ids ds := by
  rw [raised, raised, ← DetectorRun.flatMap_findings_filter, ← filter_runAll h,
    DetectorRun.flatMap_findings_filter]

theorem length_runAll (c : Context) (ids : IdSequence) (ds : List Detector) :
    (runAll c ids ds).1.length = ds.length := by
  induction ds generalizing ids with
  | nil => rfl
  | cons d ds ih => exact congrArg Nat.succ (ih (d.run c ids).2)

end Detector

/-! ### Analyses -/

namespace AnalysisRequest

variable {r : AnalysisRequest}

/-- The analysis without the detectors that are marked. -/
def without (r : AnalysisRequest) (fails : Detector → Bool) : AnalysisRequest :=
  { r with detectors := r.detectors.filter fun d => !fails d }

/-- Whether a detector is marked, or has to write a window that cannot be written. -/
def isFailing (r : AnalysisRequest) (fails : Detector → Bool) (d : Detector) : Bool :=
  fails d || r.context.toOption.any fun c => d.FailsOn c

/-- A report sees of its detectors what they raise, how many they are and which of them failed. -/
theorem reportOn_eq_without (r : AnalysisRequest) (fails : Detector → Bool) (c : Context)
    (merged : SourceRun) : r.reportOn c merged =
      { (r.without fails).reportOn c merged with
        failedDetectors := ((r.runs c).filter DetectorRun.failed).map DetectorRun.detector
        detectorsRun := (r.runs c).length
        notes := (r.reportOn c merged).notes } :=
  rfl

/-- Where every window can be written, the detectors of this library do not fail. -/
theorem isFailing_eq (h : Numeral.isWritable r.settings.uncheckedCallWindow = true) :
    r.isFailing fails = fails := by
  funext d
  rw [isFailing]
  cases hcontext : r.context with
  | error fault => exact Bool.or_false _
  | ok c =>
    have hnot : ¬d.FailsOn c := fun hfails => by
      have hwindow := hfails.2.1
      rw [settings_context hcontext, h] at hwindow
      cases hwindow
    simp [Except.toOption, hnot]

end AnalysisRequest

/-- **Detectors that give up are isolated.** Let each detector of an analysis be one of this library
or give up on the trace before it has drawn an identifier. Then the analysis is refused exactly if
the one without the detectors that give up is, and its report is the same, but that it counts these
detectors, too, and lists them as failed, in order and as often as they ran. A detector of this
library is listed among them if it has to write a window that cannot be written. -/
theorem giving_up_is_isolated (r : AnalysisRequest) (fails : Detector → Bool)
    (hfails : ∀ d ∈ r.detectors, fails d = true → ∀ c, r.context = .ok c → d.GivesUp c)
    (hrest : ∀ d ∈ r.detectors, fails d = false → d ∈ Detector.catalogue) :
    (∃ notes, analyze r =
      (analyze { r with detectors := r.detectors.filter fun d => !fails d }).map fun alone =>
        { alone with
          failedDetectors := (r.detectors.filter (r.isFailing fails)).map fun d => d.info.id
          detectorsRun := r.detectors.length
          notes }) ∧
    (Numeral.isWritable r.settings.uncheckedCallWindow = true → r.isFailing fails = fails) := by
  refine ⟨?_, AnalysisRequest.isFailing_eq⟩
  rw [analyze_eq, analyze_eq]
  change ∃ notes, (r.context >>= _) = (r.context >>= fun c => r.sources.sources >>= fun sources =>
    SourceRun.ofSources ((r.without fails).raised c) sources >>= _).map _
  cases hcontext : r.context with
  | error fault => exact ⟨[], rfl⟩
  | ok c =>
    have hmarks : Detector.Marks fails r.detectors c := fun d hd hfail =>
      hfails d hd hfail c hcontext
    have hraised : (r.without fails).raised c = r.raised c :=
      Detector.raised_filter hmarks { label := "VUL" }
    have hfailed : ((r.runs c).filter DetectorRun.failed).map DetectorRun.detector =
        (r.detectors.filter (r.isFailing fails)).map fun d => d.info.id := by
      have hfailing : r.isFailing fails = fun d => fails d || d.FailsOn c := by
        funext d
        rw [AnalysisRequest.isFailing, hcontext]
        rfl
      rw [hfailing]
      refine Detector.map_detector_failed (fun d hd ids => ?_) { label := "VUL" }
      cases hfail : fails d with
      | true => exact ((hmarks d hd hfail).run ids).1
      | false =>
        exact Detector.failed_run (hrest d hd hfail) (AnalysisRequest.indexed_context hcontext) ids
    cases hsources : r.sources.sources with
    | error fault => exact ⟨[], rfl⟩
    | ok sources =>
      change ∃ notes, (SourceRun.ofSources (r.raised c) sources >>= _) =
        (SourceRun.ofSources ((r.without fails).raised c) sources >>= _).map _
      rw [hraised]
      cases SourceRun.ofSources (r.raised c) sources with
      | error fault => exact ⟨[], rfl⟩
      | ok merged =>
        have hreport := r.reportOn_eq_without fails c merged
        rw [hfailed, AnalysisRequest.runs, Detector.length_runAll] at hreport
        exact ⟨_, congrArg Except.ok hreport⟩

/-- A detector that leaves a note and gives up on every trace that has steps. -/
def Detector.timid : Detector where
  info := {
    id := "TEST-001", name := "", description := "", weakness := "", rule := .accessControl
    severity := .medium, category := "", recommendation := "", tags := [] }
  detect c := if c.steps.isEmpty then pure [] else do
    DetectM.note [.unreadableWord "?"]
    throw .outOfRange

theorem Detector.givesUp_timid (h : c.steps.isEmpty = false) : timid.GivesUp c := by
  intro l
  refine ⟨.outOfRange, ⟨l.ids, l.notes ++ [.unreadableWord "?"]⟩, ?_, rfl⟩
  simp only [timid, h]
  rfl

/-- An analysis with the given detectors. -/
def carelessRequestBy (ds : List Detector) : AnalysisRequest :=
  { carelessRequest with detectors := ds }

theorem giving_up_is_isolated_timid :
    ∃ report alone,
      analyze (carelessRequestBy [.timid, .uncheckedCall, .timid, .originRead, .timid]) =
        .ok report ∧
      analyze (carelessRequestBy [.uncheckedCall, .originRead]) = .ok alone ∧
      report.findings = alone.findings ∧ report.mergedCount = alone.mergedCount ∧
      report.findings.map Finding.id = ["VUL-0001", "VUL-0002", "STATIC-SLITHER-0002"] ∧
      report.failedDetectors = ["TEST-001", "TEST-001", "TEST-001"] ∧ report.detectorsRun = 5 := by
  let r := carelessRequestBy [.timid, .uncheckedCall, .timid, .originRead, .timid]
  have hcases : ∀ d ∈ r.detectors, d = .timid ∨ d = .uncheckedCall ∨ d = .originRead := by
    simp [r, carelessRequestBy]
  have hfails : ∀ d ∈ r.detectors, decide (d.info.id = "TEST-001") = true →
      ∀ c, r.context = .ok c → d.GivesUp c := by
    intro d hd hid c hc
    rcases hcases d hd with rfl | rfl | rfl
    · cases hc
      exact Detector.givesUp_timid rfl
    · exact absurd hid (by decide)
    · exact absurd hid (by decide)
  have hrest : ∀ d ∈ r.detectors, decide (d.info.id = "TEST-001") = false →
      d ∈ Detector.catalogue := by
    intro d hd hid
    rcases hcases d hd with rfl | rfl | rfl
    · exact absurd hid (by decide)
    · simp [Detector.catalogue]
    · simp [Detector.catalogue]
  obtain ⟨⟨notes, h⟩, hwritable⟩ :=
    giving_up_is_isolated r (fun d => d.info.id = "TEST-001") hfails hrest
  rw [hwritable (by decide)] at h
  change _ = (analyze (carelessRequestBy [.uncheckedCall, .originRead])).map _ at h
  have hids : (analyze (carelessRequestBy [.uncheckedCall, .originRead])).toOption.any fun report =>
      report.findings.map Finding.id = ["VUL-0001", "VUL-0002", "STATIC-SLITHER-0002"] := by
    decide +kernel
  obtain ⟨alone, halone, hids⟩ := exists_of_any_toOption hids
  rw [halone] at h
  exact ⟨_, alone, h, halone, rfl, rfl, of_decide_eq_true hids, rfl, rfl⟩

end TraceAudit
