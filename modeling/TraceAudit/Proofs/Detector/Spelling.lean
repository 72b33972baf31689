import TraceAudit.Detector.Catalogue
import TraceAudit.Proofs.Detector.Walk
import TraceAudit.Proofs.Step.Spelling

/-!
# Detectors and the spelling of words

A detector that looks at a trace in normal form makes the same hits, but for the normal form of the
steps in them, and no write-up shows a word of a step. So on canonical words its scan is the same
(`scan_normal`).

Words are read for three purposes: as the window of a revert and the memory behind it, as an address
on the stack, and as the slot and value of a storage write. Everything else that detectors look at
does not change with the normal form.
-/

namespace TraceAudit

namespace Context

/-- The context with its steps in normal form. -/
def normal (c : Context) : Context :=
  { c with steps := c.steps.map Step.normal }

/-- All words of the trace are canonical. -/
def Canonical (c : Context) : Prop :=
  ∀ s ∈ c.steps.toList, s.Canonical

variable {c : Context} {keep keep' : Int → Step → Bool}

@[simp] theorem toList_steps_normal : c.normal.steps.toList = c.steps.toList.map Step.normal :=
  Array.toList_map

@[simp] theorem size_steps_normal : c.normal.steps.size = c.steps.size :=
  Array.size_map

@[simp] theorem settings_normal : c.normal.settings = c.settings :=
  rfl

theorem positions_normal (start stop : Int) :
    c.normal.positions start stop = c.positions start stop := by
  rw [positions, positions, size_steps_normal]

theorem step?_normal (p : Int) : c.normal.step? p = (c.step? p).map Step.normal := by
  rw [step?, step?, normal]
  split
  · exact Array.getElem?_map
  · rfl

theorem stepAt_normal (p : Int) : c.normal.stepAt p = (c.stepAt p).map Step.normal := by
  rw [stepAt, stepAt, size_steps_normal, step?_normal]
  cases c.step? (if p < 0 then p + c.steps.size else p) <;> rfl

theorem Canonical.of_step? (h : c.Canonical) {p : Int} {s : Step} (hs : c.step? p = some s) :
    s.Canonical := by
  rw [step?] at hs
  split at hs
  · exact h s (Array.mem_toList_iff.mpr (Array.mem_of_getElem? hs))
  · cases hs

theorem writes_normal (h : c.Canonical) : c.normal.writes = c.writes := by
  rw [writes, writes, toList_steps_normal, Step.storageWrites, List.filterMap_map]
  exact List.filterMap_congr fun s hs => Step.storageWrite?_normal (h s hs)

/-- A walk collects the normal forms of the same steps. -/
theorem collect_normal (h : ∀ i s, keep' i s.normal = keep i s) (count : Nat) (is : List Int) :
    c.normal.collect keep' count is = (c.collect keep count is).map (List.map Step.normal) := by
  -- along the positions; the count goes down only where a step is kept
  induction is generalizing count with
  | nil =>
    rw [collect_nil, collect_nil]
    rfl
  | cons i is ih =>
    cases count with
    | zero =>
      rw [collect_zero, collect_zero]
      rfl
    | succ count =>
      rw [collect_cons, collect_cons, stepAt_normal]
      cases c.stepAt i with
      | error fault => rfl
      | ok s =>
        change (if keep' i s.normal then _ else _) = Except.map _ (if keep i s then _ else _)
        rw [h, ih, ih]
        split
        · cases c.collect keep count is <;> rfl
        · rfl

end Context

variable {c : Context} {s : Step}

/-! ### Panics -/

namespace Step

theorem payloadWindow?_normal (h : s.Canonical) (limit : Int) :
    s.normal.payloadWindow? limit = s.payloadWindow? limit := by
  rw [payloadWindow?, payloadWindow?, int?_normal h, int?_normal h]

theorem panic?_normal (h : s.Canonical) (limit : Int) : s.normal.panic? limit = s.panic? limit := by
  have hread : ∀ offset size, Memory.read s.normal.memory offset size false =
      Memory.read s.memory offset size false := fun offset size => by
    rw [Memory.read, Memory.read, flatten_memory_normal h]
  have hpayload : s.normal.revertPayload? limit = s.revertPayload? limit := by
    rw [revertPayload?, revertPayload?, payloadWindow?_normal h]
    simp only [hread]
  rw [panic?, panic?, hpayload]
  rfl

/-- Of canonical words, nothing is remarked on in a payload. -/
theorem unreadablePayload_eq_nil (h : Memory.unreadable s.memory = []) (limit : Int) :
    s.unreadablePayload limit = [] := by
  rw [unreadablePayload]
  split
  · rw [h, ite_self]
  · rfl

end Step

namespace ArithmeticPanic

/-- The panic with its steps in normal form. -/
def normal (p : ArithmeticPanic) : ArithmeticPanic :=
  { p with revert := p.revert.normal, preceding := p.preceding.map Step.normal }

theorem description_normal (p : ArithmeticPanic) : p.normal.description = p.description := by
  have hindex : p.normal.revert.index = p.revert.index := rfl
  have hlookback : p.normal.lookback = p.lookback := rfl
  have hops : p.normal.preceding.map Step.op = p.preceding.map Step.op := List.map_map
  have hlength : p.normal.preceding.length = p.preceding.length := List.length_map _
  have hempty : p.normal.preceding.isEmpty = p.preceding.isEmpty := List.isEmpty_map
  -- the text is too long for its defining equation to be generated
  delta description
  rw [hindex, hlookback, hops, hlength, hempty]

theorem draft_normal (p : ArithmeticPanic) : p.normal.draft = p.draft := by
  have hindex : p.normal.revert.index = p.revert.index := rfl
  have hframe : p.normal.frame = p.frame := rfl
  have hpreceding : p.normal.preceding.map Step.toReference = p.preceding.map Step.toReference :=
    List.map_map
  rw [draft, draft, description_normal, hindex, hframe, hpreceding]

theorem precedingOf_normal (revert : Int) :
    precedingOf c.normal revert = (precedingOf c revert).map (List.map Step.normal) := by
  have hbefore : positionsBefore c.normal revert = positionsBefore c revert :=
    Context.positions_normal _ _
  rw [precedingOf, hbefore, Context.collect_normal fun _ _ => rfl]
  exact bind_map fun ops => congrArg Except.ok List.map_take.symm

theorem ofRevert_normal (s : Step) :
    ofRevert c.normal s.normal = (ofRevert c s).map (List.map normal) := by
  rw [ofRevert, Step.index_normal, precedingOf_normal]
  exact bind_map fun preceding => rfl

theorem notes_normal (h : s.Canonical) : notes c.normal s.normal = notes c s := by
  have hnormal := Step.unreadablePayload_eq_nil (Step.unreadable_memory_normal h)
  have hplain := Step.unreadablePayload_eq_nil (Step.unreadable_memory h)
  rw [notes, notes, hnormal, hplain, Step.panic?_normal h]
  rfl

theorem ofStep_normal (h : s.Canonical) :
    ofStep c.normal s.normal = (ofStep c s).map (List.map normal) := by
  rw [ofStep, ofStep, Step.panic?_normal h, ofRevert_normal, Context.settings_normal]
  cases s.panic? c.settings.panicMaxPayloadBytes with
  | none => rfl
  | some p =>
    by_cases hcode : p.code = Panic.arithmeticCode
    · simp only [if_pos hcode]
    · simp only [if_neg hcode]
      rfl

theorem scanStep_normal (h : s.Canonical) : scanStep c.normal s.normal = scanStep c s := by
  rw [scanStep, scanStep, notes_normal h, ofStep_normal h, Scan.ofHits_map draft_normal]

end ArithmeticPanic

/-! ### Pairs of steps -/

/-- What is found behind a step is found in its normal form. -/
theorem firstWithin_normal {keep keep' : Step → Bool} (h : ∀ s, keep' s.normal = keep s)
    (looked : Bool) (window : Nat) (steps : List Step) :
    firstWithin looked window (steps.map Step.normal) keep' =
      (firstWithin looked window steps keep).map Step.normal := by
  have hkeep : keep' ∘ Step.normal = keep := funext h
  rw [firstWithin, firstWithin, ← List.map_take, List.find?_map, hkeep]
  cases looked <;> rfl

namespace SuspectArithmetic

/-- The pair with its steps in normal form. -/
def normal (a : SuspectArithmetic) : SuspectArithmetic :=
  ⟨a.arithmetic.normal, a.halt.normal⟩

theorem all_normal (window : Nat) (steps : List Step) :
    all window (steps.map Step.normal) = (all window steps).map normal := by
  induction steps with
  | nil => rfl
  | cons s steps ih =>
    have hhalt := firstWithin_normal (fun t => Step.isAbnormalHalt_normal t) s.isArithmetic window
      steps
    rw [List.map_cons, all_cons, all_cons, ih, Step.isArithmetic_normal, hhalt, List.map_append]
    cases firstWithin s.isArithmetic window steps Step.isAbnormalHalt <;> rfl

end SuspectArithmetic

theorem scanArithmetic_normal (h : c.Canonical) : scanArithmetic c.normal = scanArithmetic c := by
  have hpanics : ArithmeticPanic.scan c.normal = ArithmeticPanic.scan c := by
    rw [ArithmeticPanic.scan, Context.toList_steps_normal]
    exact Scan.forEach_map fun s hs => ArithmeticPanic.scanStep_normal (h s hs)
  have hsuspects : SuspectArithmetic.scan c.normal = SuspectArithmetic.scan c := by
    rw [SuspectArithmetic.scan, Context.toList_steps_normal, SuspectArithmetic.all_normal,
      List.map_map]
    rfl
  rw [scanArithmetic, scanArithmetic, hpanics, hsuspects]

namespace FlatReentrancy

/-- The pair with its steps in normal form. -/
def normal (r : FlatReentrancy) : FlatReentrancy :=
  ⟨r.call.normal, r.store.normal⟩

theorem exposes_normal (call store : Step) :
    exposes call.normal store.normal = exposes call store :=
  rfl

theorem first?_normal (window : Nat) (steps : List Step) :
    first? window (steps.map Step.normal) = (first? window steps).map normal := by
  induction steps with
  | nil => rfl
  | cons s steps ih =>
    have hstore := firstWithin_normal (exposes_normal s) s.isExternalCall window steps
    rw [List.map_cons, first?_cons, first?_cons, ih, Step.isExternalCall_normal, hstore]
    cases firstWithin s.isExternalCall window steps (exposes s) <;> rfl

end FlatReentrancy

/-! ### Single steps -/

namespace UncheckedCall

/-- The call with its step in normal form. -/
def normal (u : UncheckedCall) : UncheckedCall :=
  { u with call := u.call.normal }

theorem all_normal (window : Nat) (steps : List Step) :
    all window (steps.map Step.normal) = (all window steps).map normal := by
  induction steps with
  | nil => rfl
  | cons s steps ih =>
    have hchecks : ((steps.map Step.normal).take window).any isCheck =
        (steps.take window).any isCheck := by
      rw [← List.map_take, List.any_map]
      rfl
    have hunchecked : isUnchecked window s.normal (steps.map Step.normal) =
        isUnchecked window s steps := by
      rw [isUnchecked, isUnchecked, Step.isExternalCall_normal, hchecks]
    rw [List.map_cons, all, all, ih, hunchecked]
    split <;> rfl

theorem unwritable_normal (window : Nat) (steps : List Step) :
    Unwritable window (steps.map Step.normal) ↔ Unwritable window steps := by
  rw [Unwritable, all_normal, ne_eq, List.map_eq_nil_iff]
  rfl

end UncheckedCall

namespace OriginRead

/-- The read with its steps in normal form. -/
def normal (r : OriginRead) : OriginRead :=
  { r with read := r.read.normal, controls := r.controls.map Step.normal }

theorem description_normal (r : OriginRead) : r.normal.description = r.description := by
  have hindex : r.normal.read.index = r.read.index := rfl
  have hframe : r.normal.frame = r.frame := rfl
  have hops : r.normal.controls.map Step.op = r.controls.map Step.op := List.map_map
  have hempty : r.normal.controls.isEmpty = r.controls.isEmpty := List.isEmpty_map
  delta description
  rw [hindex, hframe, hops, hempty]

theorem draft_normal (r : OriginRead) : r.normal.draft = r.draft := by
  have hindex : r.normal.read.index = r.read.index := rfl
  have hpc : r.normal.read.pc = r.read.pc := rfl
  have hframe : r.normal.frame = r.frame := rfl
  have hcontrols : r.normal.controls.map Step.toReference = r.controls.map Step.toReference :=
    List.map_map
  have hempty : r.normal.controls.isEmpty = r.controls.isEmpty := List.isEmpty_map
  rw [draft, draft, description_normal, severity, severity, hindex, hpc, hframe, hcontrols, hempty]

theorem ofStep_normal (s : Step) :
    ofStep c.normal s.normal = (ofStep c s).map (List.map normal) := by
  have hlookahead : lookahead c.normal s.index = lookahead c s.index := by
    rw [lookahead, lookahead, Context.positions_normal, Context.size_steps_normal]
    rfl
  have hcontrols : controlsAfter c.normal s.index =
      (controlsAfter c s.index).map (List.map Step.normal) := by
    rw [controlsAfter, controlsAfter, hlookahead]
    exact Context.collect_normal (fun _ _ => rfl) _ _
  rw [ofStep, ofStep, Step.op_normal, Step.index_normal, hcontrols]
  split
  · exact bind_map fun controls => rfl
  · rfl

end OriginRead

namespace DelegatedCall

/-- The call with its step in normal form. -/
def normal (d : DelegatedCall) : DelegatedCall :=
  { d with call := d.call.normal }

theorem pushes_normal (h : c.Canonical) (target : String) (i : Int) (s : Step) :
    pushes c.normal target i s.normal = pushes c target i s := by
  have hpushed : (c.normal.step? (i + 1)).bind (fun next => next.address? 0) =
      (c.step? (i + 1)).bind fun next => next.address? 0 := by
    rw [Context.step?_normal]
    cases hnext : c.step? (i + 1) with
    | none => rfl
    | some next => exact Step.address?_normal (h.of_step? hnext) 0
  rw [pushes, pushes, hpushed]
  rfl

theorem isConstant_normal (h : c.Canonical) (target : String) (call : Int) :
    isConstant c.normal target call = isConstant c target call := by
  have hlookback : lookback c.normal call = lookback c call := Context.positions_normal _ _
  have hkeep : ∀ i (s : Step), (c.frameOf i = c.frameOf call && pushes c.normal target i s.normal) =
      (c.frameOf i = c.frameOf call && pushes c target i s) := fun i s => by
    rw [pushes_normal h]
  rw [isConstant, isConstant, hlookback, Context.collect_normal hkeep]
  generalize c.collect _ 1 (lookback c call) = pushed
  cases pushed with
  | error fault => rfl
  | ok pushed => exact congrArg (fun b => Except.ok !b) List.isEmpty_map

theorem ofStep_normal (h : c.Canonical) (hs : s.Canonical) :
    ofStep c.normal s.normal = (ofStep c s).map (List.map normal) := by
  rw [ofStep, ofStep, Step.op_normal, Step.index_normal, Step.address?_normal hs]
  simp only [isConstant_normal h]
  split
  · cases s.address? 1 with
    | none => rfl
    | some target =>
      change (isConstant c target s.index >>= _) = Except.map _ (isConstant c target s.index >>= _)
      cases isConstant c target s.index <;> rfl
  · rfl

theorem draft_normal (d : DelegatedCall) : d.normal.draft = d.draft :=
  rfl

end DelegatedCall

/-! ### Calls of frames -/

namespace ExposedCall

/-- The call with its step in normal form. -/
def normal (e : ExposedCall) : ExposedCall :=
  { e with call := e.call.normal }

variable {frame : Frame} {writes : List StorageWrite}

theorem targetOf_normal (h : s.Canonical) (opened : Option Frame) :
    targetOf opened s.normal = targetOf opened s := by
  rw [targetOf, targetOf, Step.address?_normal h]

theorem ofCall?_normal (h : s.Canonical) :
    ofCall? c.normal frame writes s.normal = (ofCall? c frame writes s).map normal := by
  have hopened : c.normal.openedAt s.index = c.openedAt s.index := rfl
  have hharmless : ∀ target, isHarmless frame s.normal target = isHarmless frame s target :=
    fun _ => rfl
  simp only [ofCall?, Step.index_normal, hopened, targetOf_normal h, hharmless]
  rw [apply_ite (Option.map normal)]
  rfl

theorem callsOf_normal : callsOf c.normal frame = (callsOf c frame).map Step.normal := by
  rw [callsOf, callsOf, Context.toList_steps_normal, List.filter_map]
  rfl

theorem ofFrame_normal (h : c.Canonical) :
    ofFrame c.normal frame = (ofFrame c frame).map normal := by
  have hwrites : c.normal.writesOf (some frame.id) = c.writesOf (some frame.id) := by
    rw [Context.writesOf, Context.writesOf, Context.writes_normal h]
    rfl
  have hcalls : ∀ s ∈ callsOf c frame, s.Canonical := fun s hs => h s (List.mem_filter.mp hs).1
  rw [ofFrame, ofFrame, hwrites, callsOf_normal, List.filterMap_map]
  split
  · rfl
  · rw [List.map_filterMap]
    exact List.filterMap_congr fun s hs => ofCall?_normal (hcalls s hs)

theorem all_normal (h : c.Canonical) : all c.normal = (all c).map normal := by
  rw [all, all, List.map_flatMap]
  exact List.flatMap_congr fun frame _ => ofFrame_normal h

theorem drafts_normal (e : ExposedCall) : e.normal.drafts = e.drafts :=
  rfl

end ExposedCall

/-! ### All detectors -/

namespace Detector

theorem scan_uncheckedCall_normal : uncheckedCall.scan c.normal = uncheckedCall.scan c := by
  change UncheckedCall.scan c.normal = UncheckedCall.scan c
  rw [UncheckedCall.scan, UncheckedCall.scan, Context.toList_steps_normal,
    UncheckedCall.all_normal, List.map_map]
  exact if_congr (UncheckedCall.unwritable_normal _ _) rfl rfl

theorem scan_frameReentrancy_normal (h : c.Canonical) :
    frameReentrancy.scan c.normal = frameReentrancy.scan c := by
  refine if_congr Iff.rfl (congrArg Scan.ofDrafts ?_) rfl
  rw [ExposedCall.all_normal h, List.flatMap_map]
  exact List.flatMap_congr fun e _ => ExposedCall.drafts_normal e

theorem scan_flatReentrancy_normal : flatReentrancy.scan c.normal = flatReentrancy.scan c := by
  have hfound : FlatReentrancy.found c.normal = (FlatReentrancy.found c).map .normal := by
    rw [FlatReentrancy.found, FlatReentrancy.found, Context.toList_steps_normal,
      FlatReentrancy.first?_normal, apply_ite (Option.map FlatReentrancy.normal)]
    rfl
  change FlatReentrancy.scan c.normal = FlatReentrancy.scan c
  rw [FlatReentrancy.scan, FlatReentrancy.scan, hfound, Option.toList_map, List.map_map]
  rfl

theorem scan_delegatecallTarget_normal (h : c.Canonical) :
    delegatecallTarget.scan c.normal = delegatecallTarget.scan c := by
  change DelegatedCall.scan c.normal = DelegatedCall.scan c
  rw [DelegatedCall.scan, Context.toList_steps_normal]
  refine Scan.forEach_map fun s hs => ?_
  rw [DelegatedCall.ofStep_normal h (h s hs), Scan.ofHits_map DelegatedCall.draft_normal]

theorem scan_originRead_normal : originRead.scan c.normal = originRead.scan c := by
  change OriginRead.scan c.normal = OriginRead.scan c
  rw [OriginRead.scan, Context.toList_steps_normal]
  refine Scan.forEach_map fun s _ => ?_
  rw [OriginRead.ofStep_normal, Scan.ofHits_map OriginRead.draft_normal]

/-- **No detector sees how canonical words are spelled.** -/
theorem scan_normal {d : Detector} (hd : d ∈ catalogue) (h : c.Canonical) :
    d.scan c.normal = d.scan c := by
  simp only [catalogue, List.mem_cons, List.not_mem_nil, or_false] at hd
  rcases hd with rfl | rfl | rfl | rfl | rfl | rfl
  · exact scanArithmetic_normal h
  · exact scan_uncheckedCall_normal
  · exact scan_frameReentrancy_normal h
  · exact scan_flatReentrancy_normal
  · exact scan_delegatecallTarget_normal h
  · exact scan_originRead_normal

end Detector

end TraceAudit
