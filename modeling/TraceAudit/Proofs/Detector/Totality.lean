import Mathlib.Algebra.Group.Nat.Defs
import TraceAudit.Proofs.Detector.Walk
import TraceAudit.Proofs.Step.Ingest

/-!
# Detectors on ingested traces

Three detectors walk around a step by its index, and such a walk would end in a fault if it left the
trace. In an ingested trace it never does: the index of a step is its position, so a lookahead that
stops at the size of the trace and a lookback that starts no earlier than its first step stay
inside. What is left of the walks are filters of the steps in a window, and of the scans the lists
`OriginRead.all`, `DelegatedCall.all` and `ArithmeticPanic.all`, whatever the words of the steps are
and whatever the frames.

So no detector of this library comes to a fault, but for one (`Detector.fault_scan`): a write-up of
an unchecked call tells the window in decimal, and no detector gets past that if the window has more
digits than can be written. Analyses with these detectors report that one gave up in this case only
(`detectors_return`).
-/

namespace TraceAudit

variable {c : Context} {s : Step} {i : Int}

/-! ### Reads of the transaction's sender -/

namespace OriginRead

/-- The steps of control flow in the window behind a step, in the same frame. -/
def controlsNear (c : Context) (origin : Int) : List Step :=
  (c.stepsAt (lookahead c origin)).filter isControl

/-- The read that a step of an ingested trace is. -/
def atStep (c : Context) (s : Step) : OriginRead :=
  ⟨s, c.frameOf s.index, (controlsNear c s.index).take c.settings.maxOriginControls⟩

/-- The reads of an ingested trace. -/
def all (c : Context) : List OriginRead :=
  (c.steps.toList.filter fun s => s.op = Opcode.origin).map (atStep c)

theorem bounds_of_mem_lookahead {origin : Int} (horigin : 0 ≤ origin)
    (hi : i ∈ lookahead c origin) : 0 ≤ i ∧ i < c.steps.size := by
  obtain ⟨hstart, hstop⟩ := Context.bounds_of_mem_positions (List.mem_filter.mp hi).1
  omega

theorem ofStep_eq (h : c.Indexed) (hs : s ∈ c.steps.toList) :
    ofStep c s = .ok (if s.op = Opcode.origin then [atStep c s] else []) := by
  have hwalk : controlsAfter c s.index =
      .ok ((controlsNear c s.index).take c.settings.maxOriginControls) :=
    h.collect_eq _ _ fun i hi => bounds_of_mem_lookahead (h.index_bounds hs).1 hi
  rw [ofStep, hwalk]
  split <;> rfl

end OriginRead

/-! ### Delegated calls -/

namespace DelegatedCall

/-- Whether a step of the same frame in the window before a call pushes the target. -/
def isPushed (c : Context) (target : String) (call : Int) : Bool :=
  (c.stepsAt (lookback c call)).any fun s =>
    c.frameOf s.index = c.frameOf call && pushes c target s.index s

/-- The delegated call that a step of an ingested trace is. -/
def atStep (c : Context) (s : Step) : DelegatedCall :=
  ⟨s, c.frameOf s.index, s.address? 1, (s.address? 1).any fun target => isPushed c target s.index⟩

/-- The delegated calls of an ingested trace. -/
def all (c : Context) : List DelegatedCall :=
  (c.steps.toList.filter fun s => s.op = CallOp.delegatecall.name).map (atStep c)

theorem bounds_of_mem_lookback {call : Int} (hcall : call < c.steps.size)
    (hi : i ∈ lookback c call) : 0 ≤ i ∧ i < c.steps.size := by
  obtain ⟨hstart, hstop⟩ := Context.bounds_of_mem_positions hi
  omega

theorem isConstant_eq (h : c.Indexed) (hs : s ∈ c.steps.toList) (target : String) :
    isConstant c target s.index = .ok (isPushed c target s.index) := by
  have hwalk := h.collect_eq (fun i u => c.frameOf i = c.frameOf s.index && pushes c target i u) 1
    fun i hi => bounds_of_mem_lookback (h.index_bounds hs).2 hi
  -- of the steps that pass the test it only matters whether there are any
  have hany : ∀ (p : Step → Bool) (l : List Step), (!((l.filter p).take 1).isEmpty) = l.any p := by
    intro p l
    rw [Bool.eq_iff_iff]
    simp [List.take_eq_nil_iff]
  rw [isConstant, hwalk]
  exact congrArg Except.ok (hany _ _)

theorem ofStep_eq (h : c.Indexed) (hs : s ∈ c.steps.toList) :
    ofStep c s = .ok (if s.op = CallOp.delegatecall.name then [atStep c s] else []) := by
  rw [ofStep, atStep]
  split
  · cases htarget : s.address? 1 with
    | none => rfl
    | some target =>
      change (isConstant c target s.index >>= fun constant => _) = _
      rw [isConstant_eq h hs]
      rfl
  · rfl

end DelegatedCall

/-! ### Panics -/

namespace ArithmeticPanic

/-- The arithmetic steps in the window before a revert, in the same frame. -/
def opsBefore (c : Context) (revert : Int) : List Step :=
  (c.stepsAt (positionsBefore c revert)).filter fun s =>
    s.isArithmetic && c.frameOf s.index = c.frameOf revert

/-- Whether a step reverts with the panic of arithmetic. -/
def Panics (c : Context) (s : Step) : Prop :=
  s.panic? c.settings.panicMaxPayloadBytes = some ⟨Panic.arithmeticCode⟩

instance (c : Context) : DecidablePred (Panics c) := fun s =>
  inferInstanceAs (Decidable (s.panic? c.settings.panicMaxPayloadBytes =
    some ⟨Panic.arithmeticCode⟩))

/-- The panic that a revert of an ingested trace is. -/
def atStep (c : Context) (s : Step) : ArithmeticPanic :=
  ⟨s, c.frameOf s.index, (opsBefore c s.index).take c.settings.maxPrecedingArithmetic,
    min c.settings.panicArithmeticLookback s.index⟩

/-- The panics of arithmetic in an ingested trace. -/
def all (c : Context) : List ArithmeticPanic :=
  (c.steps.toList.filter (Panics c)).map (atStep c)

theorem bounds_of_mem_positionsBefore {revert : Int} (hrevert : revert < c.steps.size)
    (hi : i ∈ positionsBefore c revert) : 0 ≤ i ∧ i < c.steps.size := by
  obtain ⟨hstart, hstop⟩ := Context.bounds_of_mem_positions hi
  omega

theorem ofRevert_eq (h : c.Indexed) (hs : s ∈ c.steps.toList) :
    ofRevert c s = .ok [atStep c s] := by
  have hwalk := h.collect_eq (fun i u => u.isArithmetic && c.frameOf i = c.frameOf s.index)
    (positionsBefore c s.index).length fun i hi =>
      bounds_of_mem_positionsBefore (h.index_bounds hs).2 hi
  -- a walk that may collect a step at every position collects all that pass the test
  have hall : ((c.stepsAt (positionsBefore c s.index)).filter fun u =>
      u.isArithmetic && c.frameOf u.index = c.frameOf s.index).take
        (positionsBefore c s.index).length = opsBefore c s.index :=
    List.take_of_length_le (Nat.le_trans (List.length_filter_le _ _) (List.length_filterMap_le _ _))
  rw [ofRevert, precedingOf, hwalk, hall]
  rfl

theorem ofStep_eq (h : c.Indexed) (hs : s ∈ c.steps.toList) :
    ofStep c s = .ok (if Panics c s then [atStep c s] else []) := by
  rw [ofStep]
  by_cases hpanics : Panics c s
  · have hpanic : s.panic? c.settings.panicMaxPayloadBytes = some ⟨Panic.arithmeticCode⟩ := hpanics
    rw [if_pos hpanics, hpanic, ← ofRevert_eq h hs]
    rfl
  · rw [if_neg hpanics]
    cases hpanic : s.panic? c.settings.panicMaxPayloadBytes with
    | none => rfl
    | some p =>
      have hcode : p.code ≠ Panic.arithmeticCode := fun hcode =>
        hpanics (hpanic.trans (congrArg (some ∘ Panic.mk) hcode))
      dsimp only
      rw [if_neg hcode]

theorem scanStep_eq (h : c.Indexed) (hs : s ∈ c.steps.toList) :
    scanStep c s = ⟨notes c s, (if Panics c s then [atStep c s] else []).map draft, none⟩ := by
  rw [scanStep, ofStep_eq h hs, Scan.andThen_of_fault_eq_none rfl]
  exact congrArg (Scan.mk · _ none) (List.append_nil _)

/-- The scan for panics finds the panics of the trace. -/
theorem scan_eq (h : c.Indexed) :
    scan c = ⟨c.steps.toList.flatMap (notes c), (all c).map draft, none⟩ := by
  have hnotes : (c.steps.toList.flatMap fun s => (scanStep c s).notes) =
      c.steps.toList.flatMap (notes c) :=
    List.flatMap_congr fun s hs => by rw [scanStep_eq h hs]
  have hdrafts : (c.steps.toList.flatMap fun s => (scanStep c s).drafts) = (all c).map draft := by
    rw [all, ← Scan.flatMap_ite_singleton, List.map_flatMap]
    exact List.flatMap_congr fun s hs => by rw [scanStep_eq h hs]
  rw [scan, Scan.forEach_eq fun s hs => by rw [scanStep_eq h hs], hnotes, hdrafts]

end ArithmeticPanic

/-! ### The scans of the detectors -/

/-- A number can be written if it is short of the limit. -/
theorem Numeral.isWritable_natCast_iff (n : Nat) :
    isWritable n = true ↔ n < 10 ^ maxDecimalDigits := by
  rw [isWritable, decide_eq_true_eq, Int.natAbs_natCast]
  exact Nat.length_toDigits_le_iff (by decide) (by decide)

namespace Detector

theorem scan_originRead (h : c.Indexed) :
    originRead.scan c = .ofDrafts ((OriginRead.all c).map OriginRead.draft) :=
  Scan.forEach_ofHits fun _ hs => OriginRead.ofStep_eq h hs

theorem scan_delegatecallTarget (h : c.Indexed) :
    delegatecallTarget.scan c = .ofDrafts ((DelegatedCall.all c).map DelegatedCall.draft) :=
  Scan.forEach_ofHits fun _ hs => DelegatedCall.ofStep_eq h hs

/-- Halts behind arithmetic are drafted only where there is no panic. -/
theorem scan_arithmetic (h : c.Indexed) :
    (arithmetic.scan c).fault = none ∧
      (arithmetic.scan c).drafts =
        if ArithmeticPanic.all c = [] then
          (SuspectArithmetic.all c.settings.arithmeticFallbackWindow c.steps.toList).map
            SuspectArithmetic.draft
        else (ArithmeticPanic.all c).map ArithmeticPanic.draft := by
  change (scanArithmetic c).fault = none ∧ (scanArithmetic c).drafts = _
  rw [scanArithmetic, Scan.orElse, ArithmeticPanic.scan_eq h, List.isEmpty_map]
  by_cases hpanics : ArithmeticPanic.all c = []
  · rw [if_pos hpanics, if_pos (List.isEmpty_iff.mpr hpanics), hpanics,
      Scan.andThen_of_fault_eq_none rfl]
    exact ⟨rfl, rfl⟩
  · rw [if_neg hpanics, if_neg (mt List.isEmpty_iff.mp hpanics)]
    exact ⟨rfl, rfl⟩

/-- The detector of unchecked calls comes to its first hit and cannot write it up. -/
def FailsOn (d : Detector) (c : Context) : Prop :=
  d.info.rule = .uncheckedCall ∧
    UncheckedCall.Unwritable c.settings.uncheckedCallWindow c.steps.toList

instance (d : Detector) (c : Context) : Decidable (d.FailsOn c) :=
  inferInstanceAs (Decidable (_ ∧ _))

theorem not_failsOn_of_window_lt {d : Detector}
    (h : c.settings.uncheckedCallWindow < 10 ^ Numeral.maxDecimalDigits) : ¬d.FailsOn c :=
  fun hfails => Bool.eq_false_iff.mp hfails.2.1 ((Numeral.isWritable_natCast_iff _).mpr h)

/-- **No detector comes to a fault** on a trace whose steps carry their positions, with whatever
frames, unless it has to write a window that cannot be written. Then it has drafted nothing. -/
theorem fault_scan {d : Detector} (hd : d ∈ catalogue) (h : c.Indexed) :
    if d.FailsOn c then d.scan c = { fault := some .badValue } else (d.scan c).fault = none := by
  by_cases hfails : d.FailsOn c
  · rw [if_pos hfails, scan, hfails.1]
    exact UncheckedCall.scan_of_unwritable hfails.2
  · rw [if_neg hfails]
    simp only [catalogue, List.mem_cons, List.not_mem_nil, or_false] at hd
    rcases hd with rfl | rfl | rfl | rfl | rfl | rfl
    · exact (scan_arithmetic h).1
    · change (UncheckedCall.scan c).fault = none
      rw [UncheckedCall.scan_of_not_unwritable fun hunwritable => hfails ⟨rfl, hunwritable⟩]
      rfl
    · change (ExposedCall.scan c).fault = none
      rw [ExposedCall.scan]
      split <;> rfl
    · rfl
    · rw [scan_delegatecallTarget h]
      rfl
    · rw [scan_originRead h]
      rfl

/-- A run of a detector of this library is told by its scan. -/
theorem run_eq {d : Detector} (hd : d ∈ catalogue) (c : Context) (ids : IdSequence) :
    d.run c ids =
      (⟨d.info.id, (d.scan c).notes, (d.scan c).outcome d.info ids⟩,
        ids.skip (d.scan c).drafts.length) :=
  run_of_follows (follows_scan hd c) ids

/-- A detector returns what it drafts, numbered, or fails before it has drafted anything. -/
theorem outcome_run {d : Detector} (hd : d ∈ catalogue) (h : c.Indexed) (ids : IdSequence) :
    (d.run c ids).1.outcome =
      if d.FailsOn c then .error .badValue else .ok (d.info.findings ids (d.scan c).drafts) := by
  have hfault := fault_scan hd h
  rw [run_eq hd, Scan.outcome]
  by_cases hfails : d.FailsOn c
  · rw [if_pos hfails] at hfault ⊢
    rw [hfault]
  · rw [if_neg hfails] at hfault ⊢
    rw [hfault]

/-- A finding is a numbered draft. -/
theorem exists_finding_of_mem_findings {i : DetectorInfo} {ids : IdSequence} {drafts : List Draft}
    {f : Finding} (hf : f ∈ i.findings ids drafts) :
    ∃ draft ∈ drafts, ∃ id, f = i.finding id draft := by
  rw [DetectorInfo.findings, ← List.map_uncurry_zip_eq_zipWith] at hf
  obtain ⟨⟨id, draft⟩, hzip, rfl⟩ := List.mem_map.mp hf
  exact ⟨draft, (List.of_mem_zip hzip).2, id, rfl⟩

theorem failed_run {d : Detector} (hd : d ∈ catalogue) (h : c.Indexed) (ids : IdSequence) :
    (d.run c ids).1.failed = decide (d.FailsOn c) := by
  rw [DetectorRun.failed, outcome_run hd h]
  by_cases hfails : d.FailsOn c <;> simp [hfails]

/-- The detectors that fail, in order and as often as they run, where it does not depend on the
numbers which of them do. -/
theorem map_detector_failed {ds : List Detector} {fails : Detector → Bool}
    (h : ∀ d ∈ ds, ∀ ids, (d.run c ids).1.failed = fails d) (ids : IdSequence) :
    ((runAll c ids ds).1.filter DetectorRun.failed).map DetectorRun.detector =
      (ds.filter fails).map fun d => d.info.id := by
  induction ds generalizing ids with
  | nil => rfl
  | cons d ds ih =>
    have hrest := ih (fun d' hd' => h d' (List.mem_cons_of_mem d hd')) (d.run c ids).2
    change (((d.run c ids).1 :: (runAll c (d.run c ids).2 ds).1).filter _).map _ = _
    rw [List.filter_cons, List.filter_cons, h d List.mem_cons_self]
    split
    · exact congrArg (d.info.id :: ·) hrest
    · exact hrest

end Detector

/-! ### Analyses -/

/-- Every step of an ingested trace carries its position. -/
theorem Context.indexed_of_ingest {order : StackOrder} {source : TraceSource} {steps : List Step}
    (h : Step.ingest order source = .ok steps) (callFrames : Option CallFrames)
    (settings : Settings) : Context.Indexed ⟨steps.toArray, callFrames, settings⟩ :=
  indexed_mk (fun _ _ hs => Step.index_of_ingest h hs) callFrames settings

/-- In the context of an analysis every step carries its position. -/
theorem AnalysisRequest.indexed_context {r : AnalysisRequest} (h : r.context = .ok c) :
    c.Indexed := by
  obtain ⟨steps, hsteps, h⟩ := exists_of_bind_eq_ok h
  obtain ⟨tx, -, h⟩ := exists_of_bind_eq_ok h
  obtain ⟨callFrames, -, h⟩ := exists_of_bind_eq_ok h
  cases h
  exact Context.indexed_of_ingest hsteps callFrames r.settings

theorem AnalysisRequest.settings_context {r : AnalysisRequest} (h : r.context = .ok c) :
    c.settings = r.settings := by
  obtain ⟨steps, -, h⟩ := exists_of_bind_eq_ok h
  obtain ⟨tx, -, h⟩ := exists_of_bind_eq_ok h
  obtain ⟨callFrames, -, h⟩ := exists_of_bind_eq_ok h
  cases h
  rfl

/-- The detectors of an analysis that gave up are those that fail on its context. -/
theorem failedDetectors_of_analyze {r : AnalysisRequest} {report : Report}
    (hdetectors : ∀ d ∈ r.detectors, d ∈ Detector.catalogue) (h : analyze r = .ok report) :
    ∃ c, r.context = .ok c ∧ report.failedDetectors =
      (r.detectors.filter fun d => d.FailsOn c).map fun d => d.info.id := by
  rw [analyze_eq] at h
  obtain ⟨c, hc, h⟩ := exists_of_bind_eq_ok h
  obtain ⟨sources, -, h⟩ := exists_of_bind_eq_ok h
  obtain ⟨merged, -, h⟩ := exists_of_bind_eq_ok h
  cases h
  exact ⟨c, hc, Detector.map_detector_failed
    (fun d hd => Detector.failed_run (hdetectors d hd) (AnalysisRequest.indexed_context hc)) _⟩

/-- **Detectors return, but for one.** On a trace whose steps carry their positions, each detector
of this library returns what it drafts, numbered, whatever the words of the steps, the frames and
the settings are, unless it is the one of unchecked calls, there is such a call, and the window has
too many digits to be written. An analysis with these detectors has one that gave up in this case
only, and never if the window is short enough. -/
theorem detectors_return (c : Context) (hindexed : c.Indexed) :
    (∀ (ids : IdSequence), ∀ d ∈ Detector.catalogue,
      (d.run c ids).1.outcome =
        if d.FailsOn c then .error .badValue else .ok (d.info.findings ids (d.scan c).drafts)) ∧
    ∀ (r : AnalysisRequest) (report : Report), (∀ d ∈ r.detectors, d ∈ Detector.catalogue) →
      analyze r = .ok report →
        (r.context = .ok c → report.failedDetectors =
          (r.detectors.filter fun d => d.FailsOn c).map fun d => d.info.id) ∧
        (r.settings.uncheckedCallWindow < 10 ^ Numeral.maxDecimalDigits →
          report.failedDetectors = []) := by
  refine ⟨fun ids d hd => Detector.outcome_run hd hindexed ids, fun r report hdetectors h => ?_⟩
  obtain ⟨c', hc', hfailed⟩ := failedDetectors_of_analyze hdetectors h
  refine ⟨fun hc => ?_, fun hwindow => ?_⟩
  · obtain rfl : c' = c := Except.ok.inj (hc'.symm.trans hc)
    exact hfailed
  · rw [← AnalysisRequest.settings_context hc'] at hwindow
    rw [hfailed]
    refine List.map_eq_nil_iff.mpr (List.filter_eq_nil_iff.mpr fun d _ hfails => ?_)
    exact Detector.not_failsOn_of_window_lt hwindow (of_decide_eq_true hfails)

/-- A delegated call before which there is nothing, a panic behind which there is nothing, and words
that are none. -/
def garbledTrace : List Step := [
  ⟨0, 0, "DELEGATECALL", 900, 700, 1, ["0x64", "0xbeef", "?", "", "0x", "0xg"], []⟩,
  ⟨1, 0, "PUSH20", 890, 3, 7, ["0x"], ["?"]⟩,
  ⟨2, 1, "ADD", 880, 3, -2, [], []⟩,
  ⟨3, 0, "ORIGIN", 870, 2, 1, ["word"], []⟩,
  ⟨4, 9, "REVERT", 860, 0, 1, ["0x0", "0x24"], [
    "4e487b7100000000000000000000000000000000000000000000000000000000",
    "0000001100000000000000000000000000000000000000000000000000000000"]⟩]

theorem detectors_return_garbledTrace :
    (∀ d ∈ Detector.catalogue,
      (d.run ⟨garbledTrace.toArray, none, {}⟩ { label := "VUL" }).1.outcome =
        .ok (d.info.findings { label := "VUL" }
          (d.scan ⟨garbledTrace.toArray, none, {}⟩).drafts)) ∧
    ∃ report, analyze { trace := .entries (garbledTrace.map .step) } = .ok report ∧
      report.findings.map Finding.id = ["VUL-0001", "VUL-0002", "VUL-0003"] ∧
      report.failedDetectors = [] := by
  have hsteps : Step.ingest .bottomFirst (.entries (garbledTrace.map .step)) =
      .ok garbledTrace := by
    rfl
  have hwindow : ({} : Settings).uncheckedCallWindow < 10 ^ Numeral.maxDecimalDigits := by
    decide +kernel
  have hids : (analyze { trace := .entries (garbledTrace.map .step) }).toOption.any
      (fun report => report.findings.map Finding.id = ["VUL-0001", "VUL-0002", "VUL-0003"]) := by
    decide +kernel
  obtain ⟨report, hreport, hids⟩ := exists_of_any_toOption hids
  obtain ⟨houtcome, hanalysis⟩ :=
    detectors_return ⟨garbledTrace.toArray, none, {}⟩ (Context.indexed_of_ingest hsteps none {})
  refine ⟨fun d hd => ?_, report, hreport, of_decide_eq_true hids,
    (hanalysis _ report (fun d hd => hd) hreport).2 hwindow⟩
  exact (houtcome _ d hd).trans (if_neg (Detector.not_failsOn_of_window_lt hwindow))

/-- An analysis of one call that nothing checks, with a window of one digit too many. -/
def endlessRequest : AnalysisRequest where
  trace := .entries [.step ⟨0, 0, "CALL", 900, 700, 1, ["0x64", "0xbeef"], []⟩]
  settings := { uncheckedCallWindow := 10 ^ Numeral.maxDecimalDigits }

/-- With a window of one digit too many the call is not reported, and the detector gives up. -/
theorem failedDetectors_endlessRequest :
    ∃ report, analyze endlessRequest = .ok report ∧ report.findings = [] ∧
      report.failedDetectors = ["SWC-104-001"] ∧ report.failedDetectors ≠ [] := by
  have hreport : (analyze endlessRequest).toOption.any fun report =>
      report.findings.isEmpty ∧ report.failedDetectors = ["SWC-104-001"] := by decide +kernel
  obtain ⟨report, hreport, hfailed⟩ := exists_of_any_toOption hreport
  obtain ⟨hfindings, hfailed⟩ := of_decide_eq_true hfailed
  refine ⟨report, hreport, List.isEmpty_iff.mp hfindings, hfailed, ?_⟩
  rw [hfailed]
  exact List.cons_ne_nil _ _

end TraceAudit
