import TraceAudit.Proofs.Detector.Reports
import TraceAudit.Proofs.Word

/-!
# Constant targets of delegated calls

The detector of delegated calls compares addresses as texts, which it cuts and fills up out of the
words on the stacks. Where the words are canonical this is a comparison of numbers
(`Word.address?_eq_iff`): the target of a delegated call counts as a constant exactly if, in the
same frame and no further back than the lookback, an address was pushed that shows on the next
step's stack as a word congruent to the target modulo `2 ^ 160` (`DelegatedCall.ConstantTarget`).
The next step may be the call itself.

The main statement is `delegatedCalls_reported_of_indexed`.
-/

namespace TraceAudit

variable {c : Context} {s p next : Step} {target address : String} {j : Int}

/-- All words on the stacks of the trace are canonical. -/
def Context.CanonicalStacks (c : Context) : Prop :=
  ∀ s ∈ c.steps.toList, ∀ word ∈ s.stack, Word.isCanonical word

instance (c : Context) : Decidable c.CanonicalStacks :=
  inferInstanceAs (Decidable (∀ s ∈ c.steps.toList, ∀ word ∈ s.stack, Word.isCanonical word))

theorem Context.CanonicalStacks.isCanonical {place : Nat} {word : String} (h : c.CanonicalStacks)
    (hs : s ∈ c.steps.toList) (hword : s.word? place = some word) : Word.isCanonical word :=
  h s hs word (List.mem_of_getElem? hword)

namespace DelegatedCall

/-- At a position in the lookback of a step, in the same frame, an address is pushed, and the word
that then shows on top of the following step's stack is congruent to the target. -/
structure PushedAt (c : Context) (s : Step) (target : String) (j : Int) : Prop where
  start : max 0 (s.index - c.settings.delegatecallConstantLookback) ≤ j
  before : j < s.index
  push : ∃ p, c.step? j = some p ∧ p.op = Opcode.addressPush
  frame : c.frameOf j = c.frameOf s.index
  shows : ∃ next top, c.step? (j + 1) = some next ∧ next.word? 0 = some top ∧
    Word.Congruent top target

/-- A step has a word for the target on its stack that was pushed before. -/
def ConstantTarget (c : Context) (s : Step) : Prop :=
  ∃ target, s.word? 1 = some target ∧ ∃ j, PushedAt c s target j

/-! ### Pushed addresses -/

theorem pushes_iff : pushes c address j p = true ↔ p.op = Opcode.addressPush ∧
    ∃ next, c.step? (j + 1) = some next ∧ next.address? 0 = some address := by
  rw [pushes, Bool.and_eq_true, decide_eq_true_eq, decide_eq_true_eq, Option.bind_eq_some_iff]

/-- A stack shows the address of a target on its top if the word there is congruent to it. -/
theorem shows_iff (hstacks : c.CanonicalStacks) (hnext : next ∈ c.steps.toList)
    (htarget : Word.isCanonical target) (haddress : Word.address? target = some address) :
    next.address? 0 = some address ↔
      ∃ top, next.word? 0 = some top ∧ Word.Congruent top target := by
  rw [Step.address?, Option.bind_eq_some_iff, ← haddress]
  refine exists_congr fun top => and_congr_right fun htop => ?_
  exact Word.address?_eq_iff (hstacks.isCanonical hnext htop) htarget

/-- **A target counts as pushed if a word congruent to it was.** -/
theorem isPushed_iff (h : c.Indexed) (hstacks : c.CanonicalStacks) (hs : s ∈ c.steps.toList)
    (htarget : Word.isCanonical target) (haddress : Word.address? target = some address) :
    isPushed c address s.index = true ↔ ∃ j, PushedAt c s target j := by
  rw [isPushed, List.any_eq_true]
  constructor
  · rintro ⟨p, hp, htest⟩
    obtain ⟨j, hj, hpush⟩ := List.mem_filterMap.mp hp
    obtain ⟨hframe, hpushes⟩ := Bool.and_eq_true_iff.mp htest
    rw [h.index_of_step? hpush] at hframe hpushes
    obtain ⟨hop, next, hnext, hshown⟩ := pushes_iff.mp hpushes
    obtain ⟨top, htop, hcongruent⟩ :=
      (shows_iff hstacks (Context.mem_of_step? hnext) htarget haddress).mp hshown
    obtain ⟨hstart, hbefore⟩ := Context.bounds_of_mem_positions hj
    exact ⟨j, hstart, hbefore, ⟨p, hpush, hop⟩, of_decide_eq_true hframe,
      ⟨next, top, hnext, htop, hcongruent⟩⟩
  · rintro ⟨j, hstart, hbefore, ⟨p, hpush, hop⟩, hframe, ⟨next, top, hnext, htop, hcongruent⟩⟩
    have hsize := (h.index_bounds hs).2
    have hj : j ∈ lookback c s.index := Context.mem_positions hstart hbefore (by omega)
    have hshown := (shows_iff hstacks (Context.mem_of_step? hnext) htarget haddress).mpr
      ⟨top, htop, hcongruent⟩
    refine ⟨p, List.mem_filterMap.mpr ⟨j, hj, hpush⟩, Bool.and_eq_true_iff.mpr ?_⟩
    rw [h.index_of_step? hpush]
    exact ⟨decide_eq_true hframe, pushes_iff.mpr ⟨hop, next, hnext, hshown⟩⟩

theorem constant_atStep_iff (h : c.Indexed) (hstacks : c.CanonicalStacks)
    (hs : s ∈ c.steps.toList) : (atStep c s).constant = true ↔ ConstantTarget c s := by
  rw [atStep, Step.address?, ConstantTarget]
  cases hword : s.word? 1 with
  | none => simp
  | some target =>
    have htarget := hstacks.isCanonical hs hword
    obtain ⟨n, hn⟩ := Word.exists_denotes htarget
    have hpushed := isPushed_iff h hstacks hs htarget hn.address?
    rw [Option.bind_some, hn.address?, Option.any_some, hpushed]
    simp

/-! ### The report -/

/-- **What a finding says of a delegated call**: where it is, and whether its target is a constant,
which makes it less urgent. -/
structure ReportedBy (c : Context) (s : Step) (f : Finding) : Prop where
  step : f.evidenceOf "step" = .int s.index
  constant : ConstantTarget c s →
    f.severity = .medium ∧ f.evidenceOf "target_is_constant" = .bool true
  dynamic : ¬ ConstantTarget c s →
    f.severity = .high ∧ f.evidenceOf "target_is_constant" = .bool false

theorem reportedBy_finding (h : c.Indexed) (hstacks : c.CanonicalStacks)
    (hs : s ∈ c.steps.toList) (id : String) :
    ReportedBy c s (Detector.delegatecallTarget.info.finding id (atStep c s).draft) := by
  have hconstant := constant_atStep_iff h hstacks hs
  have hevidence : (Detector.delegatecallTarget.info.finding id (atStep c s).draft).evidenceOf
      "target_is_constant" = .bool (atStep c s).constant := rfl
  have hseverity : (Detector.delegatecallTarget.info.finding id (atStep c s).draft).severity =
      if (atStep c s).constant then .medium else .high := rfl
  refine ⟨rfl, fun htarget => ?_, fun htarget => ?_⟩
  · rw [hseverity, hevidence, hconstant.mpr htarget]
    exact ⟨rfl, rfl⟩
  · rw [hseverity, hevidence, Bool.eq_false_iff.mpr (mt hconstant.mp htarget)]
    exact ⟨rfl, rfl⟩

end DelegatedCall

/-- **Every delegated call is reported, and less urgently if its target is a constant.** On a trace
whose steps carry their positions and have canonical words on their stacks, with whatever frames,
there is one finding for each delegated call, in the order of the trace. -/
theorem delegatedCalls_reported_of_indexed (c : Context) (h : c.Indexed)
    (hstacks : c.CanonicalStacks) (ids : IdSequence) :
    ∃ fs, (Detector.delegatecallTarget.run c ids).1.outcome = .ok fs ∧
      List.Forall₂ (DelegatedCall.ReportedBy c)
        (c.steps.toList.filter fun s => s.op = CallOp.delegatecall.name) fs := by
  have hreports := Detector.reports_map_iff.mp (Detector.delegatecallTarget_reports h)
  refine hreports.exists_forall₂ (fun s hs id => ?_) ids
  exact DelegatedCall.reportedBy_finding h hstacks (List.mem_filter.mp hs).1 id

/-- An address that is pushed by a caller, another one that is pushed by its callee, and delegated
calls to both. What the caller delegates to has a digit more than an address. -/
def pushingTrace : List Step := [
  ⟨0, 0, "PUSH20", 900, 3, 1, [], []⟩,
  ⟨1, 21, "CALL", 890, 300, 1, ["0xDEAD", "0xbeef", "0x0", "0x0", "0x0", "0x0", "0x0"], []⟩,
  ⟨2, 0, "PUSH20", 290, 3, 2, [], []⟩,
  ⟨3, 21, "STOP", 280, 0, 2, ["beef"], []⟩,
  ⟨4, 22, "DELEGATECALL", 270, 100, 1,
    ["0x64", "10000000000000000000000000000000000000dEaD", "0x0", "0x0", "0x0", "0x0"], []⟩,
  ⟨5, 23, "DELEGATECALL", 160, 100, 1, ["0x64", "0xbeef", "0x0", "0x0", "0x0", "0x0"], []⟩]

/-- The context of this trace with its frames. -/
def pushingContext (t : CallFrames) : Context where
  steps := pushingTrace.toArray
  callFrames := some t

theorem delegatedCalls_reported_of_indexed_pushingTrace :
    ∃ t, CallFrames.build pushingTrace {} = .ok t ∧ (pushingContext t).CanonicalStacks ∧
      (DelegatedCall.all (pushingContext t)).map DelegatedCall.constant = [true, false] ∧
      ∃ fs, (Detector.delegatecallTarget.run (pushingContext t) { label := "VUL" }).1.outcome =
          .ok fs ∧
        List.Forall₂ (DelegatedCall.ReportedBy (pushingContext t))
          (pushingTrace.filter fun s => s.op = CallOp.delegatecall.name) fs := by
  have hingest : Step.ingest .bottomFirst (.entries (pushingTrace.map .step)) =
      .ok pushingTrace := rfl
  have hchecked : (CallFrames.build pushingTrace {}).toOption.any fun t =>
      (pushingContext t).CanonicalStacks ∧
        (DelegatedCall.all (pushingContext t)).map DelegatedCall.constant = [true, false] := by
    decide +kernel
  obtain ⟨t, ht, hchecked⟩ := exists_of_any_toOption hchecked
  obtain ⟨hstacks, hconstant⟩ := of_decide_eq_true hchecked
  exact ⟨t, ht, hstacks, hconstant, delegatedCalls_reported_of_indexed (pushingContext t)
    (Context.indexed_of_ingest hingest _ _) hstacks _⟩

end TraceAudit
