import TraceAudit.Proofs.Detector.Reports

/-!
# What counts as arithmetic out of range

What the detector of arithmetic reports of an ingested trace is said here by the indices of the
steps. The detector walks along positions before a revert and along the list behind an arithmetic
step; both are the steps with indices in a window (`Context.between`). The reverts whose payload is
the panic of arithmetic (`Context.arithmeticReverts`) decide which of two things is reported: these
reverts, each with the first arithmetic steps of its frame in the window before it, or, where there
are none, the arithmetic steps that a halt in failure follows, each with the first such halt. What
is known of frames only matters for what is listed of a revert.

The main statement is `reportsArithmetic_of_indexed`.
-/

namespace TraceAudit

variable {c : Context} {s : Step}

/-! ### Panics -/

/-- The reverts with a payload that decodes to the panic of arithmetic. -/
def Context.arithmeticReverts (c : Context) : List Step :=
  c.steps.toList.filter fun s => s.op = Opcode.revert ∧
    (s.revertPayload? c.settings.panicMaxPayloadBytes).bind Panic.ofPayload? =
      some ⟨Panic.arithmeticCode⟩

namespace ArithmeticPanic

/-- The panic of a revert, with the first arithmetic steps of the same frame in the window before
it. -/
def shownAt (c : Context) (s : Step) : ArithmeticPanic where
  revert := s
  frame := c.frameOf s.index
  preceding :=
    ((c.between (max 0 (s.index - c.settings.panicArithmeticLookback)) s.index).filter fun t =>
      t.isArithmetic ∧ c.frameOf t.index = c.frameOf s.index).take c.settings.maxPrecedingArithmetic
  lookback := min c.settings.panicArithmeticLookback s.index

theorem atStep_eq_shownAt (h : c.Indexed) (hs : s ∈ c.steps.toList) :
    atStep c s = shownAt c s := by
  have hbounds := h.index_bounds hs
  have hwindow : c.stepsAt (positionsBefore c s.index) =
      c.between (max 0 (s.index - c.settings.panicArithmeticLookback)) s.index :=
    h.stepsAt_positions (by omega)
  have hops : opsBefore c s.index =
      (c.between (max 0 (s.index - c.settings.panicArithmeticLookback)) s.index).filter fun t =>
        t.isArithmetic ∧ c.frameOf t.index = c.frameOf s.index := by
    rw [opsBefore, hwindow]
    exact List.filter_congr fun t _ => by rw [Bool.decide_and, Bool.decide_eq_true]
  rw [atStep, shownAt, hops]

theorem panics_iff : Panics c s ↔ s.op = Opcode.revert ∧
    (s.revertPayload? c.settings.panicMaxPayloadBytes).bind Panic.ofPayload? =
      some ⟨Panic.arithmeticCode⟩ := by
  rw [Panics, Step.panic?]
  split
  · next hop => exact (and_iff_right hop).symm
  · next hop => exact iff_of_false nofun fun hpanics => hop hpanics.1

/-- **The panics that are found are those of the reverts with a payload of this kind.** -/
theorem all_eq (h : c.Indexed) : all c = c.arithmeticReverts.map (shownAt c) := by
  have hreverts : c.steps.toList.filter (Panics c) = c.arithmeticReverts :=
    List.filter_congr fun s _ => decide_eq_decide.mpr panics_iff
  rw [all, hreverts]
  exact List.map_congr_left fun s hs => atStep_eq_shownAt h (List.mem_filter.mp hs).1

end ArithmeticPanic

/-! ### Halts behind arithmetic -/

namespace SuspectArithmetic

/-- An arithmetic step with the first halt in failure in the window behind it, if there is one. -/
def shownAt? (c : Context) (s : Step) : Option SuspectArithmetic :=
  if s.isArithmetic then
    ((c.between (s.index + 1) (s.index + 1 + c.settings.arithmeticFallbackWindow)).find?
      Step.isAbnormalHalt).map (mk s)
  else none

/-- **Suspect arithmetic is found step by step.** -/
theorem all_eq_of_split (h : c.Indexed) {rest : List Step} : ∀ {before : List Step},
    c.steps.toList = before ++ rest →
      all c.settings.arithmeticFallbackWindow rest = rest.filterMap (shownAt? c) := by
  induction rest with
  | nil => exact fun _ => rfl
  | cons s rest ih =>
    intro before hsplit
    have hfirst : (firstWithin s.isArithmetic c.settings.arithmeticFallbackWindow rest
        Step.isAbnormalHalt).map (mk s) = shownAt? c s := by
      rw [firstWithin, shownAt?, h.take_eq_between hsplit]
      split
      · rfl
      · rfl
    have hbehind : c.steps.toList = (before ++ [s]) ++ rest := by
      rw [hsplit, List.append_assoc]
      rfl
    rw [all_cons, hfirst, ih hbehind, List.filterMap_cons]
    cases shownAt? c s with
    | none => rfl
    | some a => rfl

theorem all_eq (h : c.Indexed) : all c.settings.arithmeticFallbackWindow c.steps.toList =
    c.steps.toList.filterMap (shownAt? c) :=
  all_eq_of_split h (List.nil_append _).symm

end SuspectArithmetic

/-! ### What the findings say -/

/-- What a finding says of a panic: it is severe and names the revert with its frame, the code of
the panic and the arithmetic steps before the revert. -/
structure ArithmeticPanic.ReportedBy (p : ArithmeticPanic) (f : Finding) : Prop where
  severity : f.severity = .high
  revert : f.evidenceOf "revert_step" = .int p.revert.index
  frame : f.evidenceOf "frame_id" = .ofInt? p.frame
  code : f.evidenceOf "panic_code" = .int Panic.arithmeticCode
  preceding :
    f.evidenceOf "preceding_arithmetic_ops" = .list (p.preceding.map Step.toReference)

theorem ArithmeticPanic.reportedBy_finding (p : ArithmeticPanic) (id : String) :
    p.ReportedBy (Detector.arithmetic.info.finding id p.draft) :=
  ⟨rfl, rfl, rfl, rfl, rfl⟩

/-- What a finding says of suspect arithmetic: it is less severe and names the arithmetic step and
the halt behind it. -/
structure SuspectArithmetic.ReportedBy (a : SuspectArithmetic) (f : Finding) : Prop where
  severity : f.severity = .medium
  arithmetic : f.evidenceOf "arithmetic_step" = .int a.arithmetic.index
  arithmeticOp : f.evidenceOf "arithmetic_op" = .text a.arithmetic.op
  halt : f.evidenceOf "failure_step" = .int a.halt.index
  haltOp : f.evidenceOf "failure_op" = .text a.halt.op
  between : f.evidenceOf "steps_between" = .int (a.halt.index - a.arithmetic.index)

theorem SuspectArithmetic.reportedBy_finding (a : SuspectArithmetic) (id : String) :
    a.ReportedBy (Detector.arithmetic.info.finding id a.draft) :=
  ⟨rfl, rfl, rfl, rfl, rfl, rfl⟩

/-! ### The report -/

/-- **What the detector of arithmetic reports of a context.** -/
structure Context.ReportsArithmetic (c : Context) : Prop where
  /-- Where payloads of reverts decode to the panic of arithmetic, these reverts are reported. -/
  panics : c.arithmeticReverts ≠ [] → Detector.arithmetic.Reports c ArithmeticPanic.draft
    (c.arithmeticReverts.map (ArithmeticPanic.shownAt c))
  /-- There is one finding for each of them, in order. -/
  panicFindings : c.arithmeticReverts ≠ [] → ∀ ids, ∃ fs,
    (Detector.arithmetic.run c ids).1.outcome = .ok fs ∧
    List.Forall₂ ArithmeticPanic.ReportedBy
      (c.arithmeticReverts.map (ArithmeticPanic.shownAt c)) fs
  /-- Nothing else is reported then. -/
  high : c.arithmeticReverts ≠ [] →
    ∀ ids, ∀ f ∈ (Detector.arithmetic.run c ids).1.findings, f.severity = .high
  /-- Where there is no such payload, whatever other reverts there are, arithmetic is reported that
  a halt in failure follows. -/
  suspects : c.arithmeticReverts = [] → Detector.arithmetic.Reports c SuspectArithmetic.draft
    (c.steps.toList.filterMap (SuspectArithmetic.shownAt? c))
  /-- There is one finding for each of these steps, in order. -/
  suspectFindings : c.arithmeticReverts = [] → ∀ ids, ∃ fs,
    (Detector.arithmetic.run c ids).1.outcome = .ok fs ∧
    List.Forall₂ SuspectArithmetic.ReportedBy
      (c.steps.toList.filterMap (SuspectArithmetic.shownAt? c)) fs
  /-- Nothing else is reported then. -/
  medium : c.arithmeticReverts = [] →
    ∀ ids, ∀ f ∈ (Detector.arithmetic.run c ids).1.findings, f.severity = .medium

/-- **Panics of arithmetic are reported, or else arithmetic before a halt.** On a trace whose steps
carry their positions, with whatever frames, the detector of arithmetic reports the one if there is
any, and the other if there is none. -/
theorem reportsArithmetic_of_indexed (c : Context) (h : c.Indexed) : c.ReportsArithmetic := by
  have hnone : ArithmeticPanic.all c = [] ↔ c.arithmeticReverts = [] := by
    rw [ArithmeticPanic.all_eq h, List.map_eq_nil_iff]
  have hpanics : c.arithmeticReverts ≠ [] → Detector.arithmetic.Reports c ArithmeticPanic.draft
      (c.arithmeticReverts.map (ArithmeticPanic.shownAt c)) := by
    intro hsome
    rw [← ArithmeticPanic.all_eq h]
    exact Detector.arithmetic_reports_panics h (mt hnone.mp hsome)
  have hsuspects : c.arithmeticReverts = [] → Detector.arithmetic.Reports c SuspectArithmetic.draft
      (c.steps.toList.filterMap (SuspectArithmetic.shownAt? c)) := by
    intro hempty
    rw [← SuspectArithmetic.all_eq h]
    exact Detector.arithmetic_reports_suspects h (hnone.mpr hempty)
  exact {
    panics := hpanics
    panicFindings := fun hsome =>
      (hpanics hsome).exists_forall₂ fun p _ => p.reportedBy_finding
    high := fun hsome => Detector.severity_of_reports (hpanics hsome) fun _ => rfl
    suspects := hsuspects
    suspectFindings := fun hempty =>
      (hsuspects hempty).exists_forall₂ fun a _ => a.reportedBy_finding
    medium := fun hempty => Detector.severity_of_reports (hsuspects hempty) fun _ => rfl }

/-- Arithmetic of a caller and of its callee, which panics. -/
def panickingTrace : List Step := [
  ⟨0, 0, "ADD", 900, 3, 1, [], []⟩,
  ⟨1, 1, "CALL", 890, 700, 1, ["0x64", "0xbeef", "0x0", "0x0", "0x0", "0x0", "0x0"], []⟩,
  ⟨2, 0, "MUL", 100, 5, 2, [], []⟩,
  ⟨3, 1, "REVERT", 95, 0, 2, ["0x0", "0x44"], [
    "4e487b7100000000000000000000000000000000000000000000000000000000",
    "0000001100000000000000000000000000000000000000000000000000000000"]⟩,
  ⟨4, 2, "INVALID", 90, 0, 1, [], []⟩]

/-- What is listed of the panics of a context, and what the suspect steps and their halts are. -/
def Context.aroundArithmetic (c : Context) : List (Int × List String) × List (Int × Int) :=
  (c.arithmeticReverts.map fun s =>
      (s.index, (ArithmeticPanic.shownAt c s).preceding.map Step.op),
    (c.steps.toList.filterMap (SuspectArithmetic.shownAt? c)).map fun a =>
      (a.arithmetic.index, a.halt.index))

/-- How severe the findings on arithmetic are, and the reverts, arithmetic steps and halts that they
name. -/
def Context.arithmeticFindings (c : Context) : List (Severity × List (Option Int)) :=
  (Detector.arithmetic.run c { label := "VUL" }).1.findings.map fun f =>
    (f.severity, ["revert_step", "arithmetic_step", "failure_step"].map fun name =>
      (f.evidenceOf name).asInt?)

/-- The payload is the panic of arithmetic if it is not too long to be read. -/
theorem reportsArithmetic_of_indexed_panickingTrace :
    (∃ t, CallFrames.build panickingTrace {} = .ok t ∧
      (Context.mk panickingTrace.toArray (some t) {}).aroundArithmetic =
        ([(3, ["MUL"])], [(0, 3), (2, 3)]) ∧
      (Context.mk panickingTrace.toArray (some t) {}).arithmeticFindings =
        [(.high, [some 3, none, none])] ∧
      (Context.mk panickingTrace.toArray (some t) {}).ReportsArithmetic) ∧
    (Context.mk panickingTrace.toArray none { panicMaxPayloadBytes := 36 }).aroundArithmetic =
      ([], [(0, 3), (2, 3)]) ∧
    (Context.mk panickingTrace.toArray none { panicMaxPayloadBytes := 36 }).arithmeticFindings =
      [(.medium, [none, some 0, some 3]), (.medium, [none, some 2, some 3])] ∧
    (Context.mk panickingTrace.toArray none { panicMaxPayloadBytes := 36 }).ReportsArithmetic := by
  have hingest : Step.ingest .bottomFirst (.entries (panickingTrace.map .step)) =
      .ok panickingTrace := rfl
  have haround : (CallFrames.build panickingTrace {}).toOption.any fun t =>
      (Context.mk panickingTrace.toArray (some t) {}).aroundArithmetic =
        ([(3, ["MUL"])], [(0, 3), (2, 3)]) ∧
      (Context.mk panickingTrace.toArray (some t) {}).arithmeticFindings =
        [(.high, [some 3, none, none])] := by decide +kernel
  obtain ⟨t, ht, haround⟩ := exists_of_any_toOption haround
  obtain ⟨haround, hfindings⟩ := of_decide_eq_true haround
  refine ⟨⟨t, ht, haround, hfindings, ?_⟩, by decide +kernel, by decide +kernel, ?_⟩
  · exact reportsArithmetic_of_indexed _ (Context.indexed_of_ingest hingest _ _)
  · exact reportsArithmetic_of_indexed _ (Context.indexed_of_ingest hingest _ _)

end TraceAudit
