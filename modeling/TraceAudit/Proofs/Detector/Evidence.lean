import Mathlib.Data.List.Sort
import TraceAudit.Proofs.Detector.Totality
import TraceAudit.Proofs.Finding.Evidence
import TraceAudit.Proofs.Frame.Integrity

/-!
# The evidence of detectors

Whatever a detector drafts on an ingested trace with its frames has evidence that refers to these
frames (`refersTo_of_mem_drafts`). Two lemmas carry the proof: `refersTo_of_frame` for evidence that
names a frame, where it is enough that the trace assigns each step to the frame, and
`refersTo_of_steps` for evidence that names steps alone. What is left for a detector is where the
steps of its hits come from. They are steps of the trace, which carry their own position
(`Context.Framed`), or steps that were looked for in the same frame.
-/

namespace TraceAudit

open Fields Value

/-- The children of a frame, in the order of their ids. -/
theorem Integrity.children_eq {n : Nat} {t : CallFrames} (h : Integrity n t) {f : Frame}
    (hf : f ∈ t.frames) :
    f.children = (t.frames.filter fun g => g.parent = some f.id).map Frame.id := by
  have hsublist : (t.frames.filter fun g => g.parent = some f.id).Sublist t.frames :=
    List.filter_sublist
  have hincreasing := h.ids_increasing.sublist (hsublist.map Frame.id)
  -- both lists increase, so it is enough that they have the same members
  refine (h.children_increasing f hf).eq_of_mem_iff hincreasing fun k => ?_
  rw [h.mem_children_iff f hf, List.mem_map]
  constructor
  · rintro ⟨g, hg, hid, hparent⟩
    exact ⟨g, List.mem_filter.mpr ⟨hg, decide_eq_true hparent⟩, hid⟩
  · rintro ⟨g, hg, hid⟩
    obtain ⟨hmem, hparent⟩ := List.mem_filter.mp hg
    exact ⟨g, hmem, hid, of_decide_eq_true hparent⟩

/-! ### Ingested traces with their frames -/

namespace Context

/-- A context of a trace whose steps carry their positions, with the frames of the trace. -/
structure Framed (c : Context) (t : CallFrames) : Prop where
  index : ∀ (i : Nat) (s : Step), c.steps[i]? = some s → s.index = i
  callFrames : c.callFrames = some t
  integrity : Integrity c.steps.size t

variable {c : Context} {t : CallFrames} {s : Step} {i k n : Int} {e : Fields}

theorem frameOf_of_callFrames (h : c.callFrames = some t) : c.frameOf n = t.frameOf n := by
  rw [frameOf, h, Option.bind_some]

theorem frames_of_callFrames (h : c.callFrames = some t) : c.frames = t.frames := by
  rw [frames, h]
  rfl

theorem Framed.frameOf_eq (h : c.Framed t) : c.frameOf n = t.frameOf n :=
  frameOf_of_callFrames h.callFrames

theorem Framed.frames_eq (h : c.Framed t) : c.frames = t.frames :=
  frames_of_callFrames h.callFrames

theorem Framed.indexed (h : c.Framed t) : c.Indexed :=
  h.index

/-- Every step belongs to one of the frames. -/
theorem Framed.exists_frame (h : c.Framed t) (hs : s ∈ c.steps.toList) :
    ∃ f ∈ t.frames, c.frameOf s.index = some f.id := by
  obtain ⟨hstart, hstop⟩ := h.indexed.index_bounds hs
  obtain ⟨f, hf, howner, -⟩ := h.integrity.owner s.index.toNat (by omega)
  refine ⟨f, hf, ?_⟩
  rw [h.frameOf_eq, CallFrames.frameOf, if_pos hstart, howner]

theorem Framed.owner_of_frameOf (h : c.Framed t) (hn : c.frameOf n = some k) :
    0 ≤ n ∧ n < t.stepToFrame.toList.length ∧ t.stepToFrame.toList[n.toNat]? = some k := by
  rw [h.frameOf_eq, CallFrames.frameOf] at hn
  split at hn
  case isFalse => exact nomatch hn
  case isTrue hnonneg =>
    have hlt := (Array.getElem?_eq_some_iff.mp hn).1
    rw [Array.length_toList, Array.getElem?_toList]
    exact ⟨hnonneg, by omega, hn⟩

/-- **Evidence that names a frame** refers to the frames of the trace if all of its steps belong to
this frame and its nested frames are the children. -/
theorem Framed.refersTo_of_frame (h : c.Framed t) {f : Frame} (hf : f ∈ t.frames)
    (hframe : e.get? "frame_id" = some (.int f.id))
    (hsteps : ∀ n ∈ e.stepNumbers, c.frameOf n = some f.id)
    (hids : ∀ k ∈ e.frameIds, k = f.id ∨ k ∈ f.children)
    (hnested : ∀ v, e.get? "nested_frames" = some v → v = .ofInts f.children) :
    e.RefersTo t.frames t.stepToFrame.toList where
  frames_known k hk := by
    rcases hids k hk with rfl | hchild
    · exact ⟨f, hf, rfl⟩
    · obtain ⟨g, hg, hid, -⟩ := (h.integrity.mem_children_iff f hf k).mp hchild
      exact ⟨g, hg, hid⟩
  steps_known n hn := by
    obtain ⟨hstart, hstop, -⟩ := h.owner_of_frameOf (hsteps n hn)
    exact ⟨hstart, hstop⟩
  owned v hv := by
    obtain rfl := Option.some.inj (hframe.symm.trans hv)
    exact ⟨f.id, rfl, fun n hn => (h.owner_of_frameOf (hsteps n hn)).2.2⟩
  tied _ := by rw [Fields.has, hframe, Option.isSome_some]
  nested v hv := by
    refine ⟨f.id, hframe, ?_⟩
    rw [hnested v hv, h.integrity.children_eq hf]

/-- **Evidence that names no frame** refers to the frames of the trace if its steps are steps of the
trace and stand in no field for the steps of one frame. -/
theorem Framed.refersTo_of_steps (h : c.Framed t) {found : List Step}
    (hfound : ∀ s ∈ found, s ∈ c.steps.toList) (hsteps : e.stepNumbers = found.map Step.index)
    (howned : e.ownedSteps = []) (hids : e.frameIds = []) (hframe : e.get? "frame_id" = none)
    (hnested : e.get? "nested_frames" = none) : e.RefersTo t.frames t.stepToFrame.toList where
  frames_known k hk := by
    rw [hids] at hk
    exact nomatch hk
  steps_known n hn := by
    rw [hsteps] at hn
    obtain ⟨s, hs, rfl⟩ := List.mem_map.mp hn
    rw [Array.length_toList, h.integrity.owners_size]
    exact h.indexed.index_bounds (hfound s hs)
  owned v hv := nomatch hframe.symm.trans hv
  tied hne := absurd howned hne
  nested v hv := nomatch hnested.symm.trans hv

end Context

/-! ### Single detectors -/

variable {c : Context} {t : CallFrames} {s : Step} {d : Draft}

/-- The evidence of a draft refers to the frames of a trace. -/
def Draft.RefersTo (d : Draft) (t : CallFrames) : Prop :=
  d.evidence.RefersTo t.frames t.stepToFrame.toList

/-- **Evidence of a step and others found around it** names the frame of the step and no nested
frames. It refers to the frames of the trace if the others are of the same frame. -/
theorem Context.Framed.refersTo_of_step (h : c.Framed t) (hs : s ∈ c.steps.toList)
    {found : List Step} (hfound : ∀ u ∈ found, c.frameOf u.index = c.frameOf s.index)
    (hsteps : d.evidence.stepNumbers = s.index :: found.map Step.index)
    (hids : d.evidence.frameIds = (c.frameOf s.index).toList)
    (hframe : d.evidence.get? "frame_id" = some (.ofInt? (c.frameOf s.index)))
    (hnested : d.evidence.get? "nested_frames" = none) : d.RefersTo t := by
  obtain ⟨f, hf, howner⟩ := h.exists_frame hs
  rw [howner] at hfound hids hframe
  refine h.refersTo_of_frame hf hframe (fun n hn => ?_) (fun k hk => ?_) fun v hv =>
    nomatch hnested.symm.trans hv
  · rw [hsteps] at hn
    rcases List.mem_cons.mp hn with rfl | hn
    · exact howner
    · obtain ⟨u, hu, rfl⟩ := List.mem_map.mp hn
      exact hfound u hu
  · rw [hids] at hk
    exact .inl (List.mem_singleton.mp hk)

namespace OriginRead

theorem stepNumbers_draft (r : OriginRead) :
    r.draft.evidence.stepNumbers = r.read.index :: r.controls.map Step.index := by
  simp [draft, stepNumbers, intsUnderFields]

theorem frameIds_draft (r : OriginRead) : r.draft.evidence.frameIds = r.frame.toList := by
  simp [draft, frameIds, intsUnderFields]

/-- The steps of control flow behind a read are found in the frame of the read. -/
theorem frameOf_of_mem_controls (h : c.Indexed) {u : Step} (hu : u ∈ (atStep c s).controls) :
    c.frameOf u.index = c.frameOf s.index := by
  have hnear : u ∈ c.stepsAt (lookahead c s.index) :=
    (List.mem_filter.mp (List.mem_of_mem_take hu)).1
  obtain ⟨i, hi, hstep⟩ := List.mem_filterMap.mp hnear
  rw [h.index_of_step? hstep]
  exact of_decide_eq_true (List.mem_filter.mp hi).2

theorem refersTo_draft (h : c.Framed t) {r : OriginRead} (hr : r ∈ all c) :
    r.draft.RefersTo t := by
  obtain ⟨s, hs, rfl⟩ := List.mem_map.mp hr
  exact h.refersTo_of_step (List.mem_filter.mp hs).1
    (fun u hu => frameOf_of_mem_controls h.indexed hu) (stepNumbers_draft _) (frameIds_draft _)
    rfl rfl

end OriginRead

namespace DelegatedCall

theorem stepNumbers_draft (call : DelegatedCall) :
    call.draft.evidence.stepNumbers = [call.call.index] := by
  simp [draft, stepNumbers, intsUnderFields]

theorem frameIds_draft (call : DelegatedCall) :
    call.draft.evidence.frameIds = call.frame.toList := by
  simp [draft, frameIds, intsUnderFields]

theorem refersTo_draft (h : c.Framed t) {call : DelegatedCall} (hcall : call ∈ all c) :
    call.draft.RefersTo t := by
  obtain ⟨s, hs, rfl⟩ := List.mem_map.mp hcall
  exact h.refersTo_of_step (List.mem_filter.mp hs).1 (List.forall_mem_nil _) (stepNumbers_draft _)
    (frameIds_draft _) rfl rfl

end DelegatedCall

namespace ArithmeticPanic

theorem stepNumbers_draft (p : ArithmeticPanic) :
    p.draft.evidence.stepNumbers = p.revert.index :: p.preceding.map Step.index := by
  simp [draft, stepNumbers, intsUnderFields]

theorem frameIds_draft (p : ArithmeticPanic) : p.draft.evidence.frameIds = p.frame.toList := by
  simp [draft, frameIds, intsUnderFields]

/-- The arithmetic before a revert is found in the frame of the revert. -/
theorem frameOf_of_mem_preceding {u : Step} (hu : u ∈ (atStep c s).preceding) :
    c.frameOf u.index = c.frameOf s.index := by
  have hkeep := (List.mem_filter.mp (List.mem_of_mem_take hu)).2
  exact of_decide_eq_true (Bool.and_eq_true _ _ ▸ hkeep).2

theorem refersTo_draft (h : c.Framed t) {p : ArithmeticPanic} (hp : p ∈ all c) :
    p.draft.RefersTo t := by
  obtain ⟨s, hs, rfl⟩ := List.mem_map.mp hp
  exact h.refersTo_of_step (List.mem_filter.mp hs).1 (fun u hu => frameOf_of_mem_preceding hu)
    (stepNumbers_draft _) (frameIds_draft _) rfl rfl

end ArithmeticPanic

namespace SuspectArithmetic

theorem mem_steps_of_mem_all {window : Nat} {steps : List Step} {a : SuspectArithmetic}
    (ha : a ∈ all window steps) : a.arithmetic ∈ steps ∧ a.halt ∈ steps := by
  induction steps with
  | nil => exact nomatch ha
  | cons s steps ih =>
    rw [all_cons] at ha
    rcases List.mem_append.mp ha with hfirst | hrest
    · obtain ⟨halt, hfound, rfl⟩ := Option.map_eq_some_iff.mp (Option.mem_toList.mp hfirst)
      exact ⟨List.mem_cons_self, List.mem_cons_of_mem s (mem_of_firstWithin hfound)⟩
    · obtain ⟨harith, hhalt⟩ := ih hrest
      exact ⟨List.mem_cons_of_mem s harith, List.mem_cons_of_mem s hhalt⟩

theorem stepNumbers_draft (a : SuspectArithmetic) :
    a.draft.evidence.stepNumbers = [a.arithmetic.index, a.halt.index] := by
  -- the evidence stands beside a text too long for a defining equation
  delta draft
  simp [stepNumbers, intsUnderFields]

theorem ownedSteps_draft (a : SuspectArithmetic) : a.draft.evidence.ownedSteps = [] := by
  delta draft
  simp [ownedSteps, intsUnderFields]

theorem frameIds_draft (a : SuspectArithmetic) : a.draft.evidence.frameIds = [] := by
  delta draft
  simp [frameIds, intsUnderFields]

theorem refersTo_draft (h : c.Framed t) {window : Nat} {a : SuspectArithmetic}
    (ha : a ∈ all window c.steps.toList) : a.draft.RefersTo t := by
  obtain ⟨harith, hhalt⟩ := mem_steps_of_mem_all ha
  have hfound : ∀ s ∈ [a.arithmetic, a.halt], s ∈ c.steps.toList :=
    List.forall_mem_cons.mpr ⟨harith, List.forall_mem_singleton.mpr hhalt⟩
  exact h.refersTo_of_steps hfound (stepNumbers_draft a) (ownedSteps_draft a) (frameIds_draft a)
    rfl rfl

end SuspectArithmetic

namespace UncheckedCall

theorem mem_steps_of_mem_all {window : Nat} {steps : List Step} {u : UncheckedCall}
    (hu : u ∈ all window steps) : u.call ∈ steps := by
  induction steps with
  | nil => exact nomatch hu
  | cons s steps ih =>
    rw [all] at hu
    split at hu
    · rcases List.mem_cons.mp hu with rfl | hu
      · exact List.mem_cons_self
      · exact List.mem_cons_of_mem s (ih hu)
    · exact List.mem_cons_of_mem s (ih hu)

theorem stepNumbers_draft (u : UncheckedCall) : u.draft.evidence.stepNumbers = [u.call.index] := by
  delta draft
  simp [stepNumbers, intsUnderFields]

theorem ownedSteps_draft (u : UncheckedCall) : u.draft.evidence.ownedSteps = [] := by
  delta draft
  simp [ownedSteps, intsUnderFields]

theorem frameIds_draft (u : UncheckedCall) : u.draft.evidence.frameIds = [] := by
  delta draft
  simp [frameIds, intsUnderFields]

theorem refersTo_draft (h : c.Framed t) {window : Nat} {u : UncheckedCall}
    (hu : u ∈ all window c.steps.toList) : u.draft.RefersTo t := by
  have hfound : ∀ s ∈ [u.call], s ∈ c.steps.toList :=
    List.forall_mem_singleton.mpr (mem_steps_of_mem_all hu)
  exact h.refersTo_of_steps hfound (stepNumbers_draft u) (ownedSteps_draft u) (frameIds_draft u)
    rfl rfl

end UncheckedCall

namespace FlatReentrancy

theorem mem_steps_of_first? {window : Nat} {steps : List Step} {r : FlatReentrancy}
    (hr : first? window steps = some r) : r.call ∈ steps ∧ r.store ∈ steps := by
  induction steps with
  | nil => exact nomatch hr
  | cons s steps ih =>
    rw [first?_cons] at hr
    cases hfound : firstWithin s.isExternalCall window steps (exposes s) with
    | some store =>
      rw [hfound] at hr
      cases hr
      exact ⟨List.mem_cons_self, List.mem_cons_of_mem s (mem_of_firstWithin hfound)⟩
    | none =>
      rw [hfound] at hr
      obtain ⟨hcall, hstore⟩ := ih hr
      exact ⟨List.mem_cons_of_mem s hcall, List.mem_cons_of_mem s hstore⟩

theorem stepNumbers_draft (r : FlatReentrancy) :
    r.draft.evidence.stepNumbers = [r.call.index, r.store.index] := by
  delta draft
  simp [stepNumbers, intsUnderFields]

theorem ownedSteps_draft (r : FlatReentrancy) : r.draft.evidence.ownedSteps = [] := by
  delta draft
  simp [ownedSteps, intsUnderFields]

theorem frameIds_draft (r : FlatReentrancy) : r.draft.evidence.frameIds = [] := by
  delta draft
  simp [frameIds, intsUnderFields]

theorem refersTo_draft (h : c.Framed t) {window : Nat} {r : FlatReentrancy}
    (hr : first? window c.steps.toList = some r) : r.draft.RefersTo t := by
  obtain ⟨hcall, hstore⟩ := mem_steps_of_first? hr
  have hfound : ∀ s ∈ [r.call, r.store], s ∈ c.steps.toList :=
    List.forall_mem_cons.mpr ⟨hcall, List.forall_mem_singleton.mpr hstore⟩
  exact h.refersTo_of_steps hfound (stepNumbers_draft r) (ownedSteps_draft r) (frameIds_draft r)
    rfl rfl

end FlatReentrancy

namespace ExposedCall

/-- What is known of an exposed call of a frame: the call and the writes belong to the frame. -/
structure Owned (c : Context) (e : ExposedCall) : Prop where
  frame : e.frame ∈ c.frames
  call : c.frameOf e.call.index = some e.frame.id
  writes : ∀ w ∈ e.writes, c.frameOf w.step = some e.frame.id

theorem owned_of_mem_all {e : ExposedCall} (he : e ∈ all c) : e.Owned c := by
  obtain ⟨frame, hframe, he⟩ := List.mem_flatMap.mp he
  rw [ofFrame] at he
  split at he
  · cases he
  · obtain ⟨call, hcall, he⟩ := List.mem_filterMap.mp he
    have hcall := (List.mem_filter.mp hcall).2
    simp only [Bool.and_eq_true, decide_eq_true_eq] at hcall
    rw [ofCall?] at he
    split at he
    · cases he
    · cases he
      refine ⟨hframe, hcall.2, fun w hw => ?_⟩
      have hw := (List.mem_filter.mp (List.mem_filter.mp hw).1).2
      exact of_decide_eq_true hw

theorem stepNumbers_callEvidence (e : ExposedCall) :
    e.callEvidence.intsUnder stepNames = [e.call.index] := by
  simp [callEvidence, intsUnderFields]

theorem frameIds_callEvidence (e : ExposedCall) : e.callEvidence.intsUnder frameNames = [] := by
  simp [callEvidence, intsUnderFields]

theorem stepNumbers_lateWriteDraft (e : ExposedCall) :
    e.lateWriteDraft.evidence.stepNumbers = e.call.index :: e.writes.map StorageWrite.step := by
  simp [lateWriteDraft, stepNumbers, intsUnderFields, stepNumbers_callEvidence]

theorem frameIds_lateWriteDraft (e : ExposedCall) :
    e.lateWriteDraft.evidence.frameIds = e.frame.id :: e.frame.children := by
  simp [lateWriteDraft, frameIds, intsUnderFields, frameIds_callEvidence]

theorem stepNumbers_repeatedDraft (e : ExposedCall) (slot : String) (ws : List StorageWrite) :
    (e.repeatedDraft slot ws).evidence.stepNumbers =
      e.call.index :: (ws.map StorageWrite.step ++ ws.map StorageWrite.step) := by
  simp [repeatedDraft, stepNumbers, intsUnderFields, stepNumbers_callEvidence]

theorem frameIds_repeatedDraft (e : ExposedCall) (slot : String) (ws : List StorageWrite) :
    (e.repeatedDraft slot ws).evidence.frameIds = [e.frame.id] := by
  simp [repeatedDraft, frameIds, intsUnderFields, frameIds_callEvidence]

theorem refersTo_lateWriteDraft (h : c.Framed t) {e : ExposedCall} (he : e.Owned c) :
    e.lateWriteDraft.RefersTo t := by
  refine h.refersTo_of_frame (h.frames_eq ▸ he.frame) rfl (fun n hn => ?_) (fun k hk => ?_)
    fun v hv => (Option.some.inj hv).symm
  · rw [stepNumbers_lateWriteDraft] at hn
    rcases List.mem_cons.mp hn with rfl | hn
    · exact he.call
    · obtain ⟨w, hw, rfl⟩ := List.mem_map.mp hn
      exact he.writes w hw
  · rw [frameIds_lateWriteDraft] at hk
    exact List.mem_cons.mp hk

theorem refersTo_repeatedDraft (h : c.Framed t) {e : ExposedCall} (he : e.Owned c) {slot : String}
    {ws : List StorageWrite} (hws : ∀ w ∈ ws, w ∈ e.writes) :
    (e.repeatedDraft slot ws).RefersTo t := by
  refine h.refersTo_of_frame (h.frames_eq ▸ he.frame) rfl (fun n hn => ?_) (fun k hk => ?_)
    fun v hv => nomatch hv
  · rw [stepNumbers_repeatedDraft, List.mem_cons, List.mem_append, or_self] at hn
    rcases hn with rfl | hn
    · exact he.call
    · obtain ⟨w, hw, rfl⟩ := List.mem_map.mp hn
      exact he.writes w (hws w hw)
  · rw [frameIds_repeatedDraft] at hk
    exact .inl (List.mem_singleton.mp hk)

theorem refersTo_of_mem_drafts (h : c.Framed t) {e : ExposedCall} (he : e.Owned c)
    (hd : d ∈ e.drafts) : d.RefersTo t := by
  rcases List.mem_append.mp hd with hd | hd
  · split at hd
    · obtain rfl := List.mem_singleton.mp hd
      exact refersTo_lateWriteDraft h he
    · exact nomatch hd
  · obtain ⟨⟨slot, ws⟩, hg, rfl⟩ := List.mem_map.mp hd
    -- the writes of a group are writes behind the call
    obtain ⟨slot', -, hslot⟩ := List.mem_map.mp (List.mem_filter.mp hg).1
    cases hslot
    exact refersTo_repeatedDraft h he fun w hw => (List.mem_filter.mp hw).1

end ExposedCall

/-! ### All detectors -/

namespace Detector

theorem refersTo_of_mem_arithmetic (h : c.Framed t) (hd : d ∈ (arithmetic.scan c).drafts) :
    d.RefersTo t := by
  rw [(scan_arithmetic h.indexed).2] at hd
  split at hd
  · obtain ⟨a, ha, rfl⟩ := List.mem_map.mp hd
    exact SuspectArithmetic.refersTo_draft h ha
  · obtain ⟨p, hp, rfl⟩ := List.mem_map.mp hd
    exact ArithmeticPanic.refersTo_draft h hp

theorem refersTo_of_mem_uncheckedCall (h : c.Framed t) (hd : d ∈ (uncheckedCall.scan c).drafts) :
    d.RefersTo t := by
  obtain ⟨u, hu, rfl⟩ := UncheckedCall.exists_of_mem_scan hd
  exact UncheckedCall.refersTo_draft h hu

theorem refersTo_of_mem_frameReentrancy (h : c.Framed t)
    (hd : d ∈ (frameReentrancy.scan c).drafts) : d.RefersTo t := by
  obtain ⟨e, he, hd⟩ := ExposedCall.exists_of_mem_scan hd
  exact ExposedCall.refersTo_of_mem_drafts h (ExposedCall.owned_of_mem_all he) hd

theorem refersTo_of_mem_flatReentrancy (h : c.Framed t)
    (hd : d ∈ (flatReentrancy.scan c).drafts) : d.RefersTo t := by
  obtain ⟨r, hr, rfl⟩ := List.mem_map.mp hd
  have hfound : FlatReentrancy.found c = some r := Option.mem_toList.mp hr
  rw [FlatReentrancy.found] at hfound
  split at hfound
  · cases hfound
  · exact FlatReentrancy.refersTo_draft h hfound

theorem refersTo_of_mem_delegatecallTarget (h : c.Framed t)
    (hd : d ∈ (delegatecallTarget.scan c).drafts) : d.RefersTo t := by
  rw [scan_delegatecallTarget h.indexed] at hd
  obtain ⟨call, hcall, rfl⟩ := List.mem_map.mp hd
  exact DelegatedCall.refersTo_draft h hcall

theorem refersTo_of_mem_originRead (h : c.Framed t) (hd : d ∈ (originRead.scan c).drafts) :
    d.RefersTo t := by
  rw [scan_originRead h.indexed] at hd
  obtain ⟨r, hr, rfl⟩ := List.mem_map.mp hd
  exact OriginRead.refersTo_draft h hr

/-- **Evidence refers to what exists.** Whatever a detector of this library drafts on an ingested
trace with its frames has evidence that refers to these frames. -/
theorem refersTo_of_mem_drafts {detector : Detector} (hdetector : detector ∈ catalogue)
    (h : c.Framed t) (hd : d ∈ (detector.scan c).drafts) : d.RefersTo t := by
  simp only [catalogue, List.mem_cons, List.not_mem_nil, or_false] at hdetector
  rcases hdetector with rfl | rfl | rfl | rfl | rfl | rfl
  · exact refersTo_of_mem_arithmetic h hd
  · exact refersTo_of_mem_uncheckedCall h hd
  · exact refersTo_of_mem_frameReentrancy h hd
  · exact refersTo_of_mem_flatReentrancy h hd
  · exact refersTo_of_mem_delegatecallTarget h hd
  · exact refersTo_of_mem_originRead h hd

end Detector

end TraceAudit
