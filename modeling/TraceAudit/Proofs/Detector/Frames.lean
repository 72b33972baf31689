import Mathlib.Data.List.Forall2
import TraceAudit.Proofs.Detector.Reports
import TraceAudit.Proofs.Frame.Integrity

/-!
# Detectors with the frames of a trace and without

Without frames no step belongs to one, so steps that detectors look for in the same frame are looked
for in the whole window. What a detector finds around a step with the frames at hand it also finds
without them, and maybe more: the steps of control flow behind a read and the arithmetic before a
revert are sublists, and a constant stays one. The hits themselves, reads, delegated calls and
reverts, do not depend on frames, nor do unchecked calls and halts behind arithmetic.

What a finding says of the read, the call or the revert follows the hit, so all of this holds of the
findings, too: of their steps, their severities, the targets and the steps that they list.

Reentrancy is for one of two detectors, with frames for the one and without them for the other.

The main statement is `agreesUnframed_of_build`.
-/

namespace TraceAudit

/-- The context without its frames. -/
def Context.unframed (c : Context) : Context :=
  { c with callFrames := none }

variable {c : Context}

theorem Context.Indexed.unframed (h : c.Indexed) : c.unframed.Indexed :=
  h

/-- Elements that are made from the same ones are related if they are for each. -/
theorem forall₂_map_map {α β γ : Type} {R : β → γ → Prop} {f : α → β} {g : α → γ} {as : List α}
    (h : ∀ a ∈ as, R (f a) (g a)) : List.Forall₂ R (as.map f) (as.map g) :=
  List.forall₂_map_left_iff.mpr (List.forall₂_map_right_iff.mpr (List.forall₂_same.mpr h))

/-! ### Reads of the transaction's sender -/

namespace OriginRead

/-- A read that is found with frames and one that is found without: they read at the same step, and
the latter is as urgent as the former, or more so. Of the control flow behind the read both list the
first steps up to the same limit, and it is for the former some of what it is for the latter. -/
structure CoveredBy (c : Context) (r r' : OriginRead) : Prop where
  read : r.read = r'.read
  severity : r.severity = .medium → r'.severity = .medium
  controls : r.controls = (controlsNear c r.read.index).take c.settings.maxOriginControls
  controls_unframed :
    r'.controls = (controlsNear c.unframed r.read.index).take c.settings.maxOriginControls
  sublist : (controlsNear c r.read.index).Sublist (controlsNear c.unframed r.read.index)

/-- A finding with frames and one without, on one read: the latter is as urgent as the former, or
more so. Both list the first steps of some control flow up to the same limit, and that of the former
is a sublist of that of the latter. -/
structure SameRead (c : Context) (f f' : Finding) : Prop where
  step : ∃ n, f.evidenceOf "step" = .int n ∧ f'.evidenceOf "step" = .int n
  severity : f.severity = .medium → f'.severity = .medium
  controls : ∃ ops ops' : List Step, ops.Sublist ops' ∧
    f.evidenceOf "nearby_controls" =
      .list ((ops.take c.settings.maxOriginControls).map Step.toReference) ∧
    f'.evidenceOf "nearby_controls" =
      .list ((ops'.take c.settings.maxOriginControls).map Step.toReference)

theorem CoveredBy.sameRead {r r' : OriginRead} (h : r.CoveredBy c r') (id id' : String) :
    SameRead c (info.finding id r.draft) (info.finding id' r'.draft) where
  step := ⟨r.read.index, rfl, congrArg (fun s : Step => Value.int s.index) h.read.symm⟩
  severity := h.severity
  controls := ⟨_, _, h.sublist,
    congrArg (fun ops : List Step => Value.list (ops.map Step.toReference)) h.controls,
    congrArg (fun ops : List Step => Value.list (ops.map Step.toReference)) h.controls_unframed⟩

theorem lookahead_sublist (c : Context) (origin : Int) :
    (lookahead c origin).Sublist (lookahead c.unframed origin) :=
  List.monotone_filter_right _ fun _ _ => rfl

theorem controlsNear_sublist (c : Context) (origin : Int) :
    (controlsNear c origin).Sublist (controlsNear c.unframed origin) :=
  ((lookahead_sublist c origin).filterMap c.step?).filter isControl

theorem atStep_coveredBy (c : Context) (s : Step) :
    (atStep c s).CoveredBy c (atStep c.unframed s) where
  read := rfl
  controls := rfl
  controls_unframed := rfl
  sublist := controlsNear_sublist c s.index
  severity h := by
    rw [severity_eq_medium_iff] at h ⊢
    -- a list that is not empty was not cut to nothing
    intro hnone
    refine h ?_
    rcases List.take_eq_nil_iff.mp hnone with hcap | hnone
    · exact List.take_eq_nil_iff.mpr (.inl hcap)
    · refine List.take_eq_nil_iff.mpr (.inr (List.sublist_nil.mp ?_))
      exact hnone ▸ controlsNear_sublist c s.index

end OriginRead

/-! ### Delegated calls -/

namespace DelegatedCall

/-- A delegated call that is found with frames and one that is found without: they are the same call
of the same target, and a target that is a constant for the former is one for the latter. -/
structure CoveredBy (d d' : DelegatedCall) : Prop where
  call : d.call = d'.call
  target : d.target = d'.target
  constant : d.constant = true → d'.constant = true

/-- Two findings on one call of one target: if it is a constant for the former, it is one for the
latter, which is no more severe. -/
structure SameCall (f f' : Finding) : Prop where
  step : ∃ n, f.evidenceOf "step" = .int n ∧ f'.evidenceOf "step" = .int n
  target : ∃ target, f.evidenceOf "target_address" = .text target ∧
    f'.evidenceOf "target_address" = .text target
  constant : f.evidenceOf "target_is_constant" = .bool true →
    f'.evidenceOf "target_is_constant" = .bool true
  severity : f'.severity.rank ≤ f.severity.rank

theorem rank_severity_le {d d' : DelegatedCall} (h : d.constant = true → d'.constant = true) :
    d'.severity.rank ≤ d.severity.rank := by
  rw [severity, severity]
  by_cases hconstant : d.constant = true
  · rw [if_pos hconstant, if_pos (h hconstant)]
  · rw [if_neg hconstant]
    split
    · exact Nat.le_succ 2
    · exact Nat.le_refl 3

theorem CoveredBy.sameCall {d d' : DelegatedCall} (h : d.CoveredBy d') (id id' : String) :
    SameCall (info.finding id d.draft) (info.finding id' d'.draft) where
  step := ⟨d.call.index, rfl, congrArg (fun s : Step => Value.int s.index) h.call.symm⟩
  target := ⟨d.target.getD "unknown", rfl,
    congrArg (fun target : Option String => Value.text (target.getD "unknown")) h.target.symm⟩
  constant hconstant := congrArg Value.bool (h.constant (Value.bool.inj hconstant))
  severity := rank_severity_le h.constant

theorem isPushed_unframed {target : String} {call : Int} (h : isPushed c target call = true) :
    isPushed c.unframed target call = true := by
  obtain ⟨s, hs, hpush⟩ := List.any_eq_true.mp h
  exact List.any_eq_true.mpr ⟨s, hs, (Bool.and_eq_true _ _ ▸ hpush).2⟩

theorem atStep_coveredBy (c : Context) (s : Step) :
    (atStep c s).CoveredBy (atStep c.unframed s) where
  call := rfl
  target := rfl
  constant h := by
    obtain ⟨target, htarget, hpushed⟩ := (Option.any_eq_true _ _).mp h
    exact (Option.any_eq_true _ _).mpr ⟨target, htarget, isPushed_unframed hpushed⟩

end DelegatedCall

/-! ### Panics -/

namespace ArithmeticPanic

/-- A panic that is found with frames and one that is found without: they are of one revert, and the
arithmetic before it, of which both list the first steps up to the same limit, is for the former
some of what it is for the latter. -/
structure CoveredBy (c : Context) (p p' : ArithmeticPanic) : Prop where
  revert : p.revert = p'.revert
  preceding : p.preceding = (opsBefore c p.revert.index).take c.settings.maxPrecedingArithmetic
  preceding_unframed :
    p'.preceding = (opsBefore c.unframed p.revert.index).take c.settings.maxPrecedingArithmetic
  sublist : (opsBefore c p.revert.index).Sublist (opsBefore c.unframed p.revert.index)

/-- A finding with frames and one without, on one revert: both list the first steps of some
arithmetic up to the same limit, and that of the former is a sublist of that of the latter. -/
structure SameRevert (c : Context) (f f' : Finding) : Prop where
  step : ∃ n, f.evidenceOf "revert_step" = .int n ∧ f'.evidenceOf "revert_step" = .int n
  severity : f.severity = .high ∧ f'.severity = .high
  preceding : ∃ ops ops' : List Step, ops.Sublist ops' ∧
    f.evidenceOf "preceding_arithmetic_ops" =
      .list ((ops.take c.settings.maxPrecedingArithmetic).map Step.toReference) ∧
    f'.evidenceOf "preceding_arithmetic_ops" =
      .list ((ops'.take c.settings.maxPrecedingArithmetic).map Step.toReference)

theorem CoveredBy.sameRevert {p p' : ArithmeticPanic} (h : p.CoveredBy c p') (id id' : String) :
    SameRevert c (Detector.arithmeticInfo.finding id p.draft)
      (Detector.arithmeticInfo.finding id' p'.draft) where
  step := ⟨p.revert.index, rfl, congrArg (fun s : Step => Value.int s.index) h.revert.symm⟩
  severity := ⟨rfl, rfl⟩
  preceding := ⟨_, _, h.sublist,
    congrArg (fun ops : List Step => Value.list (ops.map Step.toReference)) h.preceding,
    congrArg (fun ops : List Step => Value.list (ops.map Step.toReference)) h.preceding_unframed⟩

theorem opsBefore_sublist (c : Context) (revert : Int) :
    (opsBefore c revert).Sublist (opsBefore c.unframed revert) := by
  refine List.monotone_filter_right _ fun s hs => ?_
  have harith : s.isArithmetic = true := (Bool.and_eq_true _ _ ▸ hs).1
  exact Bool.and_eq_true _ _ ▸ ⟨harith, rfl⟩

theorem atStep_coveredBy (c : Context) (s : Step) :
    (atStep c s).CoveredBy c (atStep c.unframed s) where
  revert := rfl
  preceding := rfl
  preceding_unframed := rfl
  sublist := opsBefore_sublist c s.index

theorem all_unframed_eq_nil_iff : all c.unframed = [] ↔ all c = [] := by
  rw [all, all, List.map_eq_nil_iff, List.map_eq_nil_iff]
  exact Iff.rfl

end ArithmeticPanic

/-- The frames of a trace that has steps are available. -/
theorem Integrity.available {n : Nat} {t : CallFrames} (h : Integrity n t) (hn : 0 < n) :
    t.available = true := by
  obtain ⟨f, hf, -⟩ := h.owner 0 hn
  have hframes : t.frames ≠ [] := List.ne_nil_of_mem hf
  have howners : t.stepToFrame ≠ #[] := fun hnil => by
    have := h.owners_size
    rw [hnil] at this
    exact absurd hn (this ▸ Nat.lt_irrefl 0)
  simp [CallFrames.available, hframes, howners]

/-! ### The agreement -/

/-- **How far a context and the same context without frames agree.** Each detector returns on both,
unless the window for unchecked calls cannot be written, and what it reports on the one is tied to
what it reports on the other. -/
structure Context.AgreesUnframed (c : Context) : Prop where
  /-- What becomes of unchecked calls is the same in everything. -/
  uncheckedCall_run : ∀ ids,
    Detector.uncheckedCall.run c ids = Detector.uncheckedCall.run c.unframed ids
  /-- The same calls are unchecked. -/
  uncheckedCall : ¬UncheckedCall.Unwritable c.settings.uncheckedCallWindow c.steps.toList →
    ∃ calls, Detector.uncheckedCall.Reports c UncheckedCall.draft calls ∧
      Detector.uncheckedCall.Reports c.unframed UncheckedCall.draft calls
  /-- The same reverts are panics. -/
  panics : List.Forall₂ (ArithmeticPanic.CoveredBy c) (ArithmeticPanic.all c)
    (ArithmeticPanic.all c.unframed)
  /-- Panics are reported if there are any. -/
  arithmetic_of_panics : ArithmeticPanic.all c ≠ [] →
    Detector.arithmetic.Reports c ArithmeticPanic.draft (ArithmeticPanic.all c) ∧
    Detector.arithmetic.Reports c.unframed ArithmeticPanic.draft (ArithmeticPanic.all c.unframed)
  /-- The findings on them are those of the same reverts. -/
  pairs_of_panics : ArithmeticPanic.all c ≠ [] →
    Detector.arithmetic.Pairs c c.unframed (ArithmeticPanic.SameRevert c)
  /-- Otherwise the findings are the same. -/
  outcome_of_no_panics : ArithmeticPanic.all c = [] → ∀ ids, ∃ fs,
    (Detector.arithmetic.run c ids).1.outcome = .ok fs ∧
    (Detector.arithmetic.run c.unframed ids).1.outcome = .ok fs
  /-- They are those of the same suspect arithmetic. -/
  arithmetic_of_no_panics : ArithmeticPanic.all c = [] → ∃ suspects,
    Detector.arithmetic.Reports c SuspectArithmetic.draft suspects ∧
    Detector.arithmetic.Reports c.unframed SuspectArithmetic.draft suspects
  /-- The same steps read the sender of the transaction. -/
  originRead : Detector.originRead.Reports c OriginRead.draft (OriginRead.all c) ∧
    Detector.originRead.Reports c.unframed OriginRead.draft (OriginRead.all c.unframed) ∧
    List.Forall₂ (OriginRead.CoveredBy c) (OriginRead.all c) (OriginRead.all c.unframed)
  /-- The findings are on the same reads. -/
  pairs_originRead : Detector.originRead.Pairs c c.unframed (OriginRead.SameRead c)
  /-- The same calls are delegated, to the same targets. -/
  delegatecallTarget : Detector.delegatecallTarget.Reports c DelegatedCall.draft
      (DelegatedCall.all c) ∧
    Detector.delegatecallTarget.Reports c.unframed DelegatedCall.draft
      (DelegatedCall.all c.unframed) ∧
    List.Forall₂ DelegatedCall.CoveredBy (DelegatedCall.all c) (DelegatedCall.all c.unframed)
  /-- The findings are on the same calls. -/
  pairs_delegatecallTarget : Detector.delegatecallTarget.Pairs c c.unframed DelegatedCall.SameCall
  /-- Without frames there is no reentrancy in frames. -/
  frameReentrancy : ∀ ids, (Detector.frameReentrancy.run c.unframed ids).1.outcome = .ok []
  /-- With the frames of a trace that has steps there is no reentrancy in a flat trace. -/
  flatReentrancy : c.steps ≠ #[] → ∀ ids, (Detector.flatReentrancy.run c ids).1.outcome = .ok []

theorem Context.agreesUnframed (h : c.Indexed) (hframes : c.steps ≠ #[] → c.hasFrames = true) :
    c.AgreesUnframed := by
  have hreads : List.Forall₂ (OriginRead.CoveredBy c) (OriginRead.all c)
      (OriginRead.all c.unframed) :=
    forall₂_map_map fun s _ => OriginRead.atStep_coveredBy c s
  have hcalls : List.Forall₂ DelegatedCall.CoveredBy (DelegatedCall.all c)
      (DelegatedCall.all c.unframed) :=
    forall₂_map_map fun s _ => DelegatedCall.atStep_coveredBy c s
  have hreverts : List.Forall₂ (ArithmeticPanic.CoveredBy c) (ArithmeticPanic.all c)
      (ArithmeticPanic.all c.unframed) :=
    forall₂_map_map fun s _ => ArithmeticPanic.atStep_coveredBy c s
  have hpanics := fun hsome : ArithmeticPanic.all c ≠ [] =>
    And.intro (Detector.arithmetic_reports_panics h hsome)
      (Detector.arithmetic_reports_panics h.unframed
        (mt ArithmeticPanic.all_unframed_eq_nil_iff.mp hsome))
  have hsuspects := fun hnone : ArithmeticPanic.all c = [] =>
    And.intro (Detector.arithmetic_reports_suspects h hnone)
      (Detector.arithmetic_reports_suspects h.unframed
        (ArithmeticPanic.all_unframed_eq_nil_iff.mpr hnone))
  exact {
    uncheckedCall_run := fun _ => rfl
    uncheckedCall := fun hwritable => ⟨_, Detector.uncheckedCall_reports hwritable,
      Detector.uncheckedCall_reports hwritable⟩
    panics := hreverts
    arithmetic_of_panics := hpanics
    pairs_of_panics := fun hsome => Detector.pairs_of_reports (hpanics hsome).1 (hpanics hsome).2
      hreverts fun _ _ hcovered => hcovered.sameRevert
    outcome_of_no_panics := fun hnone ids =>
      ⟨_, (hsuspects hnone).1 ids, (hsuspects hnone).2 ids⟩
    arithmetic_of_no_panics := fun hnone => ⟨_, hsuspects hnone⟩
    originRead := ⟨Detector.originRead_reports h, Detector.originRead_reports h.unframed, hreads⟩
    pairs_originRead := Detector.pairs_of_reports (Detector.originRead_reports h)
      (Detector.originRead_reports h.unframed) hreads fun _ _ hcovered => hcovered.sameRead
    delegatecallTarget := ⟨Detector.delegatecallTarget_reports h,
      Detector.delegatecallTarget_reports h.unframed, hcalls⟩
    pairs_delegatecallTarget := Detector.pairs_of_reports (Detector.delegatecallTarget_reports h)
      (Detector.delegatecallTarget_reports h.unframed) hcalls fun _ _ hcovered => hcovered.sameCall
    frameReentrancy := Detector.outcome_frameReentrancy rfl
    flatReentrancy := fun hne => Detector.outcome_flatReentrancy (hframes hne) }

/-- **Frames narrow what is found and lose no hit.** On a trace whose steps carry their positions,
the detectors agree on the context with the frames of a reconstruction and on the one without
frames. -/
theorem agreesUnframed_of_build (steps : List Step) (tx : Transaction) (t : CallFrames)
    (settings : Settings) (hindex : ∀ (i : Nat) (s : Step), steps[i]? = some s → s.index = i)
    (hbuild : CallFrames.build steps tx = .ok t) :
    (Context.mk steps.toArray (some t) settings).AgreesUnframed := by
  refine Context.agreesUnframed (Context.indexed_mk hindex _ _) fun hne => ?_
  have hlength : 0 < steps.length := List.length_pos_of_ne_nil fun hnil => hne (by rw [hnil])
  exact (Nesting.integrity_of_build hbuild).available hlength

/-- A call that reads the sender, adds and pushes an address, and a caller that delegates to this
address, jumps and panics. -/
def crossingTrace : List Step := [
  ⟨0, 0, "CALL", 900, 700, 1, ["0x64", "0xbeef", "0x0", "0x0", "0x0", "0x0", "0x0"], []⟩,
  ⟨1, 0, "ORIGIN", 100, 2, 2, [], []⟩,
  ⟨2, 1, "ADD", 98, 3, 2, [], []⟩,
  ⟨3, 2, "PUSH20", 95, 3, 2, [], []⟩,
  ⟨4, 3, "STOP", 92, 0, 2, ["0xdead"], []⟩,
  ⟨5, 1, "DELEGATECALL", 200, 100, 1, ["0x64", "0xdead", "0x0", "0x0", "0x0", "0x0"], []⟩,
  ⟨6, 2, "JUMPI", 100, 10, 1, [], []⟩,
  ⟨7, 3, "REVERT", 90, 0, 1, ["0x0", "0x24"], [
    "4e487b7100000000000000000000000000000000000000000000000000000000",
    "0000001100000000000000000000000000000000000000000000000000000000"]⟩]

/-- How urgent the reads are, which targets are constants and what is found before the panics. -/
def Context.aroundHits (c : Context) : List Severity × List Bool × List (List String) :=
  ((OriginRead.all c).map OriginRead.severity, (DelegatedCall.all c).map DelegatedCall.constant,
    (ArithmeticPanic.all c).map fun p => p.preceding.map Step.op)

/-- How severe the findings are on reads of the sender and on delegated calls. -/
def Context.accessSeverities (c : Context) : List Severity × List Severity :=
  ((Detector.originRead.run c { label := "VUL" }).1.findings.map Finding.severity,
    (Detector.delegatecallTarget.run c { label := "VUL" }).1.findings.map Finding.severity)

theorem agreesUnframed_of_build_crossingTrace :
    ∃ t, CallFrames.build crossingTrace {} = .ok t ∧
      (Context.mk crossingTrace.toArray (some t) {}).aroundHits = ([.low], [false], [[]]) ∧
      (Context.mk crossingTrace.toArray (some t) {}).unframed.aroundHits =
        ([.medium], [true], [["ADD"]]) ∧
      (Context.mk crossingTrace.toArray (some t) {}).accessSeverities = ([.low], [.high]) ∧
      (Context.mk crossingTrace.toArray (some t) {}).unframed.accessSeverities =
        ([.medium], [.medium]) ∧
      (Context.mk crossingTrace.toArray (some t) {}).AgreesUnframed := by
  have hingest : Step.ingest .bottomFirst (.entries (crossingTrace.map .step)) =
      .ok crossingTrace := rfl
  have haround : (CallFrames.build crossingTrace {}).toOption.any fun t =>
      (Context.mk crossingTrace.toArray (some t) {}).aroundHits = ([.low], [false], [[]]) ∧
        (Context.mk crossingTrace.toArray (some t) {}).unframed.aroundHits =
          ([.medium], [true], [["ADD"]]) ∧
        (Context.mk crossingTrace.toArray (some t) {}).accessSeverities = ([.low], [.high]) ∧
        (Context.mk crossingTrace.toArray (some t) {}).unframed.accessSeverities =
          ([.medium], [.medium]) := by decide +kernel
  obtain ⟨t, ht, haround⟩ := exists_of_any_toOption haround
  obtain ⟨hframed, hunframed, hseverities, hunframed'⟩ := of_decide_eq_true haround
  exact ⟨t, ht, hframed, hunframed, hseverities, hunframed',
    agreesUnframed_of_build crossingTrace {} t {}
      (fun i s hs => Step.index_of_ingest hingest hs) ht⟩

end TraceAudit
