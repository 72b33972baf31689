import TraceAudit.Proofs.Detector.Evidence
import TraceAudit.Proofs.Detector.Reports
import TraceAudit.Proofs.Frame.Refusal

/-!
# Which calls are exposed

What the detector of reentrancy in frames reports is said here without its indices, for an ingested
trace with its frames. A call is exposed (`ExposedCall.Shown`) if storage writes of its frame follow
it and it could come back from outside: it is delegated, or its target, as the stack tells it, is
neither provided by the machine nor the frame's own. One thing is reported for the call, and one
more for each slot with two or more of the writes (`ReentrancyHit.Shown`). The reports stand in the
order of frames, then of calls, then of the first writes to the slots (`ReentrancyHit.place`).

Two parts of the detector make no difference here. A frame with an external call has a child, the
frame that the call opened. And this frame knows the same target as the stack of the call, or none
(`Context.Opens`).

The main statement is `reportsExposed_of_build`.
-/

namespace TraceAudit

/-- What is the only element to pass a test is found. -/
theorem find?_of_unique {α : Type} {as : List α} {p : α → Bool} {a : α} (ha : a ∈ as)
    (hp : p a = true) (hunique : ∀ b ∈ as, p b = true → b = a) : as.find? p = some a := by
  obtain ⟨b, hb⟩ := Option.isSome_iff_exists.mp (List.find?_isSome.mpr ⟨a, ha, hp⟩)
  rw [hb, hunique b (List.mem_of_find?_eq_some hb) (List.find?_some hb)]

/-! ### Groups in order -/

section Groups

variable {α κ : Type} [DecidableEq κ] {R : α → α → Prop}

/-- Keys without repetition stand in the order of the first elements that have them. -/
theorem pairwise_eraseDups_map (key : α → κ) : ∀ {as : List α}, as.Pairwise R →
    (as.map key).eraseDups.Pairwise fun k k' =>
      ∀ a, as.find? (key · = k) = some a → ∀ b, as.find? (key · = k') = some b → R a b
  | [], _ => List.Pairwise.nil
  | x :: xs, h => by
    obtain ⟨hx, hxs⟩ := List.pairwise_cons.mp h
    -- behind the first key come the keys of what is left when its group is taken out
    have hrest : (xs.map key).filter (fun k => !k == key x) =
        (xs.filter fun a => !key a == key x).map key := List.filter_map
    have hother : ∀ k ∈ ((xs.filter fun a => !key a == key x).map key).eraseDups,
        k ≠ key x ∧ (x :: xs).find? (key · = k) =
          (xs.filter fun a => !key a == key x).find? (key · = k) := by
      intro k hk
      obtain ⟨a, ha, rfl⟩ := List.mem_map.mp (List.mem_eraseDups.mp hk)
      have hne : key a ≠ key x := by simpa using (List.mem_filter.mp ha).2
      refine ⟨hne, ?_⟩
      rw [List.find?_cons_of_neg (by simpa using hne.symm), ← List.head?_filter,
        ← List.head?_filter, List.filter_filter]
      refine congrArg List.head? (List.filter_congr fun b _ => ?_)
      by_cases hb : key b = key a <;> simp [hb, hne]
    rw [List.map_cons, List.eraseDups_cons, hrest, List.pairwise_cons]
    constructor
    · intro k hk a ha b hb
      rw [(hother k hk).2] at hb
      rw [List.find?_cons_of_pos (by simp)] at ha
      obtain rfl := Option.some.inj ha
      exact hx b (List.mem_of_mem_filter (List.mem_of_find?_eq_some hb))
    · refine (pairwise_eraseDups_map key (hxs.filter _)).imp_of_mem fun {k k'} hk hk' hkk' => ?_
      rw [(hother k hk).2, (hother k' hk').2]
      exact hkk'
  termination_by as => as.length
  decreasing_by exact Nat.lt_succ_of_le (List.length_filter_le _ _)

end Groups

/-! ### The frame that a call opens -/

/-- An external call is a call with the target behind the word on top. -/
theorem Step.exists_of_isExternalCall {s : Step} (h : s.isExternalCall = true) :
    ∃ op, CallOp.ofName? s.op = some op ∧ op.layout.target = some 1 := by
  have hmem : s.op ∈ Opcode.externalCalls := List.contains_iff_mem.mp h
  obtain ⟨op, hop, hname⟩ := List.mem_map.mp hmem
  refine ⟨op, hname ▸ CallOp.ofName?_name op, ?_⟩
  have hcreates := (List.mem_filter.mp hop).2
  cases op <;> first | rfl | exact nomatch hcreates

theorem Word.address?_ne_empty {word a : String} (h : Word.address? word = some a) : a ≠ "" := by
  obtain ⟨n, -, rfl⟩ := Option.map_eq_some_iff.mp h
  intro hempty
  have hchars := congrArg String.toList hempty
  rw [String.toList_ofList] at hchars
  exact List.cons_ne_nil _ _ hchars

/-- An opened frame that knows the target of the stack or none makes no difference to the target. -/
theorem ExposedCall.targetOf_eq_of_agrees {g : Frame} {call : Step}
    (h : ∀ a, g.target = some a → call.address? 1 = some a) :
    targetOf (some g) call = call.address? 1 := by
  rw [targetOf, Option.bind_some]
  cases hg : g.target with
  | none => rfl
  | some a =>
    have haddress := h a hg
    obtain ⟨word, -, hword⟩ := Option.bind_eq_some_iff.mp haddress
    have hkept : (some a).filter (fun x : String => decide (x ≠ "")) = some a :=
      Option.filter_some_pos (by simpa using Word.address?_ne_empty hword)
    rw [hkept, haddress]

/-! ### Contexts with their reconstruction -/

namespace Context

/-- A context with the frames that reconstruction gives for its trace. -/
structure Rebuilt (c : Context) (tx : Transaction) (t : CallFrames) : Prop where
  callFrames : c.callFrames = some t
  build : CallFrames.build c.steps.toList tx = .ok t

variable {c : Context} {tx : Transaction} {t : CallFrames} {s : Step} {f g : Frame}

theorem Rebuilt.frames_eq (h : c.Rebuilt tx t) : c.frames = t.frames :=
  frames_of_callFrames h.callFrames

theorem Rebuilt.integrity (h : c.Rebuilt tx t) : Integrity c.steps.size t := by
  have hintegrity := Nesting.integrity_of_build h.build
  rwa [Array.length_toList] at hintegrity

theorem Rebuilt.framed (h : c.Rebuilt tx t) (hindexed : c.Indexed) : c.Framed t :=
  ⟨hindexed, h.callFrames, h.integrity⟩

/-- The frame that a call opened is found by the step of the call. -/
theorem Rebuilt.openedAt_eq (h : c.Rebuilt tx t) (hg : g ∈ t.frames) (hroot : g.isRoot = false) :
    c.openedAt g.startStep = some g := by
  rw [openedAt, h.frames_eq]
  refine find?_of_unique (List.mem_reverse.mpr hg) (by simp [hroot]) fun f hf hpass => ?_
  simp only [Bool.and_eq_true, Bool.not_eq_true', beq_iff_eq] at hpass
  exact Nesting.eq_of_startStep_eq h.build (List.mem_reverse.mp hf) hg hpass.1 hroot hpass.2

/-- What an external call of the frame `f` does to the frames: it opens the frame `g` inside of `f`,
and `g` tells no other target than the stack of the call. -/
structure Opens (c : Context) (call : Step) (f g : Frame) : Prop where
  caller_mem : f ∈ c.frames
  owner : c.frameOf call.index = some f.id
  opened_mem : g ∈ c.frames
  opened : c.openedAt call.index = some g
  parent : g.parent = some f.id
  child : g.id ∈ f.children
  startStep : g.startStep = call.index
  target : ExposedCall.targetOf (some g) call = call.address? 1

/-- **An external call opens a frame** inside of the frame that it belongs to, if it carries its
position. -/
theorem Rebuilt.exists_opens (h : c.Rebuilt tx t) (hs : c.step? s.index = some s)
    (hcall : s.isExternalCall = true) (hf : f ∈ c.frames) (howner : c.frameOf s.index = some f.id) :
    ∃ g, c.Opens s f g := by
  obtain ⟨op, hop, htarget⟩ := Step.exists_of_isExternalCall hcall
  obtain ⟨hnonneg, hi⟩ := step?_eq_some_iff.mp hs
  obtain ⟨g, parent, hopens, hreads, -⟩ := Nesting.opens_of_build h.build hi hop
  have hroot : g.isRoot = false := by rw [Frame.isRoot, hopens.parent_eq]; rfl
  have hframe : g.parent = some f.id := by
    rw [hopens.parent_eq, ← hopens.owner, ← howner, frameOf_of_callFrames h.callFrames,
      CallFrames.frameOf, if_pos hnonneg]
  have hagrees : ∀ a, g.target = some a → s.address? 1 = some a := by
    intro a ha
    -- a stack that is too short leaves the frame without a target
    by_cases hshort : s.stack.length < op.layout.arity
    · have hnone : g.target = none := congrArg CallOperands.target (hreads.short hshort)
      rw [hnone] at ha
      cases ha
    · have hword := hreads.target (Nat.le_of_not_lt hshort)
      rw [htarget, Option.bind_some] at hword
      exact hword.symm.trans ha
  have hstart : g.startStep = s.index := hopens.startStep.trans (Int.toNat_of_nonneg hnonneg)
  have hchild := (h.integrity.mem_children_iff f (h.frames_eq ▸ hf) g.id).mpr
    ⟨g, hopens.mem, rfl, hframe⟩
  exact ⟨g, hf, howner, h.frames_eq ▸ hopens.mem, hstart ▸ h.openedAt_eq hopens.mem hroot, hframe,
    hchild, hstart, ExposedCall.targetOf_eq_of_agrees hagrees⟩

/-! ### Writes behind a call -/

/-- The storage writes of a frame behind a step. -/
def writesBehind (c : Context) (step frame : Int) : List StorageWrite :=
  (c.steps.toList.filter fun s => step < s.index ∧ c.frameOf s.index = some frame).filterMap
    Step.storageWrite?

theorem step_of_storageWrite? {w : StorageWrite} (h : s.storageWrite? = some w) :
    w.step = s.index := by
  rw [Step.storageWrite?] at h
  split at h
  · split at h
    · cases h
      rfl
    · exact nomatch h
  · exact nomatch h

theorem filter_writesOf (c : Context) (step frame : Int) :
    (c.writesOf (some frame)).filter (fun w => step < w.step) = c.writesBehind step frame := by
  rw [writesOf, writes, Step.storageWrites, List.filter_filter, List.filter_filterMap, writesBehind,
    List.filterMap_filter]
  refine List.filterMap_congr fun s _ => ?_
  cases hw : s.storageWrite? with
  | none => simp
  | some w => simp [Option.filter_some, step_of_storageWrite? hw]

theorem Indexed.pairwise_writesBehind (h : c.Indexed) (step frame : Int) :
    (c.writesBehind step frame).Pairwise fun w w' => w.step < w'.step := by
  refine List.pairwise_filterMap.mpr
    ((h.pairwise_index.filter _).imp fun {s s'} hlt w hw w' hw' => ?_)
  rw [step_of_storageWrite? hw, step_of_storageWrite? hw']
  exact hlt

end Context

/-! ### Exposed calls -/

variable {c : Context} {tx : Transaction} {t : CallFrames}

namespace ExposedCall

/-- What an ingested trace with its frames shows: an external call that storage writes of its frame
follow and that could come back from outside. -/
structure Shown (c : Context) (e : ExposedCall) : Prop where
  call_mem : e.call ∈ c.steps.toList
  isExternalCall : e.call.isExternalCall = true
  frame_mem : e.frame ∈ c.frames
  /-- The frame is the one that the call belongs to. -/
  owner : c.frameOf e.call.index = some e.frame.id
  /-- The opened frame is the one that starts with the call. -/
  opened : e.opened = c.openedAt e.call.index
  /-- The target is the address that the stack of the call tells, if it tells one. -/
  target : e.target = e.call.address? 1
  /-- The writes are those of the frame behind the call, in order, and there are some. -/
  writes : e.writes = c.writesBehind e.call.index e.frame.id
  writes_ne_nil : e.writes ≠ []
  /-- The call is delegated, or its target is neither provided by the machine nor the frame's
  own. -/
  comesBack : e.call.op = CallOp.delegatecall.name ∨ ∀ a, e.target = some a →
    Address.isPrecompile a = false ∧ ∀ b, e.frame.target = some b → Address.same a b = false

variable {e : ExposedCall} {frame : Frame} {call : Step}

theorem isHarmless_eq_false_iff {target : Option String} :
    isHarmless frame call target = false ↔ call.op = CallOp.delegatecall.name ∨
      ∀ a, target = some a → Address.isPrecompile a = false ∧
        ∀ b, frame.target = some b → Address.same a b = false := by
  rw [isHarmless, isDelegated, Bool.and_eq_false_iff, Bool.not_eq_false', decide_eq_true_eq]
  refine or_congr_right ?_
  cases target with
  | none => simp
  | some a => cases frame.target <;> simp

/-- A call of a frame that carries its position is found to be exposed if the trace shows it. -/
theorem ofCall?_eq_some_iff (h : c.Rebuilt tx t) (hframe : frame ∈ c.frames)
    (hcall : call ∈ callsOf c frame) (hplaced : c.step? call.index = some call) :
    ofCall? c frame (c.writesOf (some frame.id)) call = some e ↔
      e.Shown c ∧ e.frame = frame ∧ e.call = call := by
  obtain ⟨hs, hmine⟩ := List.mem_filter.mp hcall
  obtain ⟨hexternal, howner⟩ :
      call.isExternalCall = true ∧ c.frameOf call.index = some frame.id := by
    simpa using hmine
  obtain ⟨g, hopens⟩ := h.exists_opens hplaced hexternal hframe howner
  have htarget : targetOf (c.openedAt call.index) call = call.address? 1 := by
    rw [hopens.opened, hopens.target]
  rw [ofCall?, c.filter_writesOf, htarget]
  constructor
  · intro hsome
    split at hsome
    · cases hsome
    · next hexposed =>
      cases hsome
      obtain ⟨hwrites, hharmful⟩ : c.writesBehind call.index frame.id ≠ [] ∧
          isHarmless frame call (call.address? 1) = false := by simpa using hexposed
      exact ⟨⟨hs, hexternal, hframe, howner, rfl, rfl, rfl, hwrites,
        isHarmless_eq_false_iff.mp hharmful⟩, rfl, rfl⟩
  · rintro ⟨hshown, rfl, rfl⟩
    have hwrites : (c.writesBehind e.call.index e.frame.id).isEmpty = false := by
      rw [← hshown.writes]
      exact List.isEmpty_eq_false_iff.mpr hshown.writes_ne_nil
    have hharmful : isHarmless e.frame e.call (e.call.address? 1) = false := by
      rw [← hshown.target]
      exact isHarmless_eq_false_iff.mpr hshown.comesBack
    rw [hwrites, hharmful, Bool.or_self, if_neg Bool.false_ne_true, ← hshown.opened,
      ← hshown.target, ← hshown.writes]

theorem ofFrame_eq (c : Context) (frame : Frame) :
    ofFrame c frame =
      (callsOf c frame).filterMap (ofCall? c frame (c.writesOf (some frame.id))) := by
  rw [ofFrame]
  split
  · next hempty =>
    -- where there are no writes, no call has writes behind it
    symm
    rw [List.filterMap_eq_nil_iff]
    intro call _
    rw [ofCall?, List.isEmpty_iff.mp hempty]
    rfl
  · rfl

/-- What is found of a frame is found of one of its calls. -/
theorem exists_call_of_mem_ofFrame (he : e ∈ ofFrame c frame) : ∃ call ∈ callsOf c frame,
    ofCall? c frame (c.writesOf (some frame.id)) call = some e := by
  rw [ofFrame_eq] at he
  exact List.mem_filterMap.mp he

/-- **A call that the trace shows to be exposed is found**, if it carries its position. -/
theorem mem_all_of_shown (h : c.Rebuilt tx t) (he : e.Shown c)
    (hplaced : c.step? e.call.index = some e.call) : e ∈ all c := by
  have hcall : e.call ∈ callsOf c e.frame :=
    List.mem_filter.mpr ⟨he.call_mem, by simp [he.isExternalCall, he.owner]⟩
  refine List.mem_flatMap.mpr ⟨e.frame, he.frame_mem, ?_⟩
  rw [ofFrame_eq]
  exact List.mem_filterMap.mpr
    ⟨e.call, hcall, (ofCall?_eq_some_iff h he.frame_mem hcall hplaced).mpr ⟨he, rfl, rfl⟩⟩

section Indexed

variable (h : c.Rebuilt tx t) (hindexed : c.Indexed)

include h hindexed

theorem shown_of_mem_ofFrame (hframe : frame ∈ c.frames) (he : e ∈ ofFrame c frame) :
    e.Shown c ∧ e.frame = frame := by
  obtain ⟨call, hcall, he⟩ := exists_call_of_mem_ofFrame he
  have hplaced := hindexed.step?_index (List.mem_filter.mp hcall).1
  have hshown := (ofCall?_eq_some_iff h hframe hcall hplaced).mp he
  exact ⟨hshown.1, hshown.2.1⟩

/-- **The exposed calls of an ingested trace are those that the trace shows.** -/
theorem mem_all_iff : e ∈ all c ↔ e.Shown c := by
  constructor
  · intro he
    obtain ⟨frame, hframe, he⟩ := List.mem_flatMap.mp he
    exact (shown_of_mem_ofFrame h hindexed hframe he).1
  · intro he
    exact mem_all_of_shown h he (hindexed.step?_index he.call_mem)

end Indexed

/-- Where a call stands in a report: behind all calls of earlier frames and all earlier calls of its
own frame. -/
def place (e : ExposedCall) : List Int :=
  [e.frame.id, e.call.index]

theorem pairwise_place_all (h : c.Rebuilt tx t) (hindexed : c.Indexed) :
    (all c).Pairwise fun e e' => e.place < e'.place := by
  rw [all, List.pairwise_flatMap]
  constructor
  · intro frame hframe
    rw [ofFrame_eq]
    refine List.pairwise_filterMap.mpr ?_
    refine (hindexed.pairwise_index.filter _).imp_of_mem ?_
    intro call call' hcall hcall' hlt e he e' he'
    have hplaced := hindexed.step?_index (List.mem_filter.mp hcall).1
    have hplaced' := hindexed.step?_index (List.mem_filter.mp hcall').1
    obtain ⟨-, rfl, rfl⟩ := (ofCall?_eq_some_iff h hframe hcall hplaced).mp he
    obtain ⟨-, hframe', rfl⟩ := (ofCall?_eq_some_iff h hframe hcall' hplaced').mp he'
    rw [place, place, hframe']
    simpa [List.cons_lt_cons_iff] using hlt
  · rw [h.frames_eq]
    refine (List.pairwise_map.mp h.integrity.ids_increasing).imp_of_mem ?_
    intro frame frame' hframe hframe' hlt e he e' he'
    rw [← h.frames_eq] at hframe hframe'
    rw [place, place, (shown_of_mem_ofFrame h hindexed hframe he).2,
      (shown_of_mem_ofFrame h hindexed hframe' he').2]
    exact List.cons_lt_cons_iff.mpr (.inl hlt)

/-- Without frames no call is exposed. -/
theorem all_eq_nil (h : c.hasFrames = false) : all c = [] := by
  refine List.flatMap_eq_nil_iff.mpr fun frame hframe => ?_
  have hcalls : callsOf c frame = [] := by
    refine List.filter_eq_nil_iff.mpr fun call _ => ?_
    cases ht : c.callFrames with
    | none => simp [Context.frameOf, ht]
    | some t =>
      -- there is a frame, so what is missing are the owners
      have hne : t.frames ≠ [] := Context.frames_of_callFrames ht ▸ List.ne_nil_of_mem hframe
      have hnone : t.stepToFrame = #[] := by
        simpa [Context.hasFrames, ht, CallFrames.available, hne] using h
      simp [Context.frameOf, ht, CallFrames.frameOf, hnone]
  rw [ofFrame_eq, hcalls, List.filterMap_nil]

/-! ### Slots -/

theorem mem_repeated_iff {slot : String} {ws : List StorageWrite} :
    (slot, ws) ∈ e.repeated ↔ ws = e.writes.filter (fun w => w.slot = slot) ∧ 2 ≤ ws.length := by
  rw [repeated, List.mem_filter, List.mem_map, decide_eq_true_eq]
  constructor
  · rintro ⟨⟨slot', -, hgroup⟩, hlength⟩
    cases hgroup
    exact ⟨rfl, hlength⟩
  · rintro ⟨rfl, hlength⟩
    -- a slot with two writes is the slot of some write
    obtain ⟨w, hw⟩ := List.exists_mem_of_length_pos (Nat.lt_of_lt_of_le Nat.zero_lt_two hlength)
    obtain ⟨hmem, hslot⟩ := List.mem_filter.mp hw
    have hslot : w.slot = slot := of_decide_eq_true hslot
    exact ⟨⟨slot, List.mem_eraseDups.mpr (List.mem_map.mpr ⟨w, hmem, hslot⟩), rfl⟩, hlength⟩

theorem pairwise_repeated (hwrites : e.writes.Pairwise fun w w' => w.step < w'.step) :
    e.repeated.Pairwise fun g g' =>
      ∀ w, g.2.head? = some w → ∀ w', g'.2.head? = some w' → w.step < w'.step := by
  refine List.Pairwise.filter _ (List.pairwise_map.mpr ?_)
  refine (pairwise_eraseDups_map StorageWrite.slot hwrites).imp fun {slot slot'} hlt => ?_
  rw [List.head?_filter, List.head?_filter]
  exact hlt

end ExposedCall

/-! ### The report -/

/-- What is reported of an exposed call: the call with the writes behind it, or a slot with some of
these writes. -/
inductive ReentrancyHit where
  | lateWrites (e : ExposedCall)
  | race (e : ExposedCall) (slot : String) (writes : List StorageWrite)

namespace ReentrancyHit

/-- The write-up. -/
def draft : ReentrancyHit → Draft
  | lateWrites e => e.lateWriteDraft
  | race e slot ws => e.repeatedDraft slot ws

/-- The writes that a hit is about. -/
def writes : ReentrancyHit → List StorageWrite
  | lateWrites e => e.writes
  | race _ _ ws => ws

/-- What an ingested trace with its frames shows: exposed calls, and for each of them the slots with
two or more of the writes, with all of these writes. -/
def Shown (c : Context) : ReentrancyHit → Prop
  | lateWrites e => e.Shown c
  | race e slot ws => e.Shown c ∧ ws = e.writes.filter (fun w => w.slot = slot) ∧ 2 ≤ ws.length

/-- Where a hit stands in the report: frame and step of the call, and for a slot the step of its
first write. -/
def place : ReentrancyHit → List Int
  | lateWrites e => e.place
  | race e _ ws => e.place ++ ws.head?.toList.map StorageWrite.step

/-- What is reported of one exposed call. -/
def ofCall (e : ExposedCall) : List ReentrancyHit :=
  (if e.isOpen then [lateWrites e] else []) ++ e.repeated.map fun g => race e g.1 g.2

/-- What is reported of a trace. -/
def all (c : Context) : List ReentrancyHit :=
  (ExposedCall.all c).flatMap ofCall

variable {hit : ReentrancyHit} {e : ExposedCall}

theorem drafts_eq (e : ExposedCall) : e.drafts = (ofCall e).map draft := by
  rw [ExposedCall.drafts, ofCall, List.map_append, List.map_map]
  split
  · rfl
  · rfl

/-- Somebody could have come back to an exposed call that carries its position. -/
theorem isOpen_of_shown (h : c.Rebuilt tx t) (he : e.Shown c)
    (hplaced : c.step? e.call.index = some e.call) : e.isOpen = true := by
  obtain ⟨g, hopens⟩ := h.exists_opens hplaced he.isExternalCall he.frame_mem he.owner
  rw [ExposedCall.isOpen, List.isEmpty_eq_false_iff.mpr (List.ne_nil_of_mem hopens.child)]
  rfl

/-- What is reported of an exposed call to which somebody could have come back. -/
theorem ofCall_of_isOpen (h : e.isOpen = true) :
    ofCall e = lateWrites e :: e.repeated.map fun g => race e g.1 g.2 := by
  rw [ofCall, if_pos h]
  rfl

/-- The exposed call that a hit is about. -/
def exposed : ReentrancyHit → ExposedCall
  | lateWrites e => e
  | race e _ _ => e

theorem mem_ofCall_iff (hopen : e.isOpen = true) (hshown : e.Shown c) :
    hit ∈ ofCall e ↔ hit.Shown c ∧ hit.exposed = e := by
  rw [ofCall_of_isOpen hopen, List.mem_cons, List.mem_map, Prod.exists]
  cases hit with
  | lateWrites e' =>
    simp only [reduceCtorEq, and_false, exists_const, or_false, lateWrites.injEq, Shown, exposed]
    exact ⟨fun h => ⟨h ▸ hshown, h⟩, fun h => h.2⟩
  | race e' slot ws =>
    simp only [reduceCtorEq, false_or, race.injEq, ExposedCall.mem_repeated_iff, Shown, exposed]
    constructor
    · rintro ⟨slot, ws, hgroup, rfl, rfl, rfl⟩
      exact ⟨⟨hshown, hgroup⟩, rfl⟩
    · rintro ⟨⟨-, hgroup⟩, rfl⟩
      exact ⟨slot, ws, hgroup, rfl, rfl, rfl⟩

theorem Shown.exposed (h : hit.Shown c) : hit.exposed.Shown c := by
  cases hit with
  | lateWrites e => exact h
  | race e slot ws => exact h.1

/-- **What the trace shows of a call that carries its position is reported.** -/
theorem mem_all_of_shown (h : c.Rebuilt tx t) (hshown : hit.Shown c)
    (hplaced : c.step? hit.exposed.call.index = some hit.exposed.call) : hit ∈ all c := by
  have he := hshown.exposed
  exact List.mem_flatMap.mpr ⟨hit.exposed, ExposedCall.mem_all_of_shown h he hplaced,
    (mem_ofCall_iff (isOpen_of_shown h he hplaced) he).mpr ⟨hshown, rfl⟩⟩

/-- **What is reported of an ingested trace is what the trace shows.** -/
theorem mem_all_iff (h : c.Rebuilt tx t) (hindexed : c.Indexed) : hit ∈ all c ↔ hit.Shown c := by
  constructor
  · intro hmem
    obtain ⟨e, he, hmem⟩ := List.mem_flatMap.mp hmem
    have he := (ExposedCall.mem_all_iff h hindexed).mp he
    have hopen := isOpen_of_shown h he (hindexed.step?_index he.call_mem)
    exact ((mem_ofCall_iff hopen he).mp hmem).1
  · intro hshown
    exact mem_all_of_shown h hshown (hindexed.step?_index hshown.exposed.call_mem)

/-- What is reported of a call stands at the place of the call. -/
theorem exists_place_eq (hopen : e.isOpen = true) (hmem : hit ∈ ofCall e) :
    ∃ rest, hit.place = e.place ++ rest := by
  rw [ofCall_of_isOpen hopen] at hmem
  rcases List.mem_cons.mp hmem with rfl | hmem
  · exact ⟨[], (List.append_nil _).symm⟩
  · obtain ⟨g, -, rfl⟩ := List.mem_map.mp hmem
    exact ⟨_, rfl⟩

theorem pairwise_place_ofCall (hopen : e.isOpen = true)
    (hwrites : e.writes.Pairwise fun w w' => w.step < w'.step) :
    (ofCall e).Pairwise fun hit hit' => hit.place < hit'.place := by
  have hfirst : ∀ g ∈ e.repeated, ∃ w, g.2.head? = some w := by
    rintro ⟨slot, ws⟩ hg
    have hlength := (ExposedCall.mem_repeated_iff.mp hg).2
    exact ⟨_, List.head?_eq_some_head
      (List.ne_nil_of_length_pos (Nat.lt_of_lt_of_le Nat.zero_lt_two hlength))⟩
  rw [ofCall_of_isOpen hopen]
  refine List.pairwise_cons.mpr ⟨?_, List.pairwise_map.mpr ?_⟩
  · intro hit hmem
    obtain ⟨g, hg, rfl⟩ := List.mem_map.mp hmem
    obtain ⟨w, hw⟩ := hfirst g hg
    rw [place, place, hw]
    simp [ExposedCall.place]
  · refine (ExposedCall.pairwise_repeated hwrites).imp_of_mem fun {g g'} hg hg' hlt => ?_
    obtain ⟨w, hw⟩ := hfirst g hg
    obtain ⟨w', hw'⟩ := hfirst g' hg'
    rw [place, place, hw, hw']
    exact List.append_left_lt (List.cons_lt_cons_iff.mpr (.inl (hlt w hw w' hw')))

/-- **The report on an ingested trace is in strict order.** -/
theorem pairwise_place_all (h : c.Rebuilt tx t) (hindexed : c.Indexed) :
    (all c).Pairwise fun hit hit' => hit.place < hit'.place := by
  have hshown : ∀ e ∈ ExposedCall.all c, e.Shown c ∧ e.isOpen = true := by
    intro e he
    have he := (ExposedCall.mem_all_iff h hindexed).mp he
    exact ⟨he, isOpen_of_shown h he (hindexed.step?_index he.call_mem)⟩
  rw [all, List.pairwise_flatMap]
  constructor
  · intro e he
    refine pairwise_place_ofCall (hshown e he).2 ?_
    rw [(hshown e he).1.writes]
    exact hindexed.pairwise_writesBehind _ _
  · refine (ExposedCall.pairwise_place_all h hindexed).imp_of_mem ?_
    intro e e' he he' hlt hit hmem hit' hmem'
    obtain ⟨rest, hplace⟩ := exists_place_eq (hshown e he).2 hmem
    obtain ⟨rest', hplace'⟩ := exists_place_eq (hshown e' he').2 hmem'
    rw [hplace, hplace']
    simp only [ExposedCall.place, List.cons_append, List.nil_append, List.cons_lt_cons_iff,
      List.not_lt_nil, and_false, or_false] at hlt ⊢
    exact hlt.imp_right (And.imp_right .inl)

end ReentrancyHit

theorem Detector.frameReentrancy_reports (c : Context) :
    frameReentrancy.Reports c ReentrancyHit.draft (ReentrancyHit.all c) := by
  have hdrafts : (ExposedCall.all c).flatMap ExposedCall.drafts =
      (ReentrancyHit.all c).map ReentrancyHit.draft := by
    rw [ReentrancyHit.all, List.map_flatMap]
    exact List.flatMap_congr fun e _ => ReentrancyHit.drafts_eq e
  refine reports_of_scan_eq (by simp [catalogue]) ?_
  change ExposedCall.scan c = _
  rw [ExposedCall.scan, ← hdrafts]
  split
  · rfl
  · next hframes =>
    rw [ExposedCall.all_eq_nil (Bool.eq_false_iff.mpr hframes)]
    rfl

/-! ### What the findings say -/

/-- The step of the external call that a finding names. -/
def Finding.callStep (f : Finding) : Value :=
  (f.evidenceOf "external_call").get "step"

namespace ReentrancyHit

/-- A slot with the number and the steps of its writes, as evidence. -/
def raceEvidence (slot : String) (ws : List StorageWrite) : Value :=
  .object [
    ("slot", .text slot), ("count", .int ws.length),
    ("steps", .ofInts (ws.map StorageWrite.step))]

/-- What sets the findings of the two kinds apart: late writes are severe, and a race tells the slot
with its writes. -/
def Marks (f : Finding) : ReentrancyHit → Prop
  | lateWrites _ =>
    f.severity = .high ∧ "state-race" ∉ f.tags ∧ f.evidenceOf "multiple_writes" = .null
  | race _ slot ws =>
    f.severity = .medium ∧ "state-race" ∈ f.tags ∧
      f.evidenceOf "multiple_writes" = raceEvidence slot ws

/-- What a finding says of a hit: it names the frame and the call, and it lists the writes that the
hit is about. -/
structure ReportedBy (hit : ReentrancyHit) (f : Finding) : Prop where
  frame : f.evidenceOf "frame_id" = .int hit.exposed.frame.id
  call : f.callStep = .int hit.exposed.call.index
  sstores : f.evidenceOf "sstores" = .list (hit.writes.map StorageWrite.toValue)
  marks : hit.Marks f

/-- The write-up of a hit says what it should. -/
theorem reportedBy_finding (hit : ReentrancyHit) (id : String) :
    hit.ReportedBy (Detector.frameReentrancy.info.finding id hit.draft) := by
  cases hit with
  | lateWrites e =>
    have htags : "state-race" ∉ (ExposedCall.info.tags ++ []).eraseDups := by decide
    exact ⟨rfl, rfl, rfl, rfl, htags, rfl⟩
  | race e slot ws =>
    have htags : "state-race" ∈ (ExposedCall.info.tags ++ ["state-race"]).eraseDups := by decide
    exact ⟨rfl, rfl, rfl, rfl, htags, rfl⟩

end ReentrancyHit

/-! ### The main statement -/

/-- **What the detector of reentrancy in frames reports of a context.** It returns what the context
shows, each once and in strict order, and its findings say so one by one. Each external call opens a
frame. -/
structure Context.ReportsExposed (c : Context) : Prop where
  hits : ∃ hits, Detector.frameReentrancy.Reports c ReentrancyHit.draft hits ∧
    (∀ ids, ∃ fs, (Detector.frameReentrancy.run c ids).1.outcome = .ok fs ∧
      List.Forall₂ ReentrancyHit.ReportedBy hits fs) ∧
    hits.Pairwise (fun hit hit' => hit.place < hit'.place) ∧
    ∀ hit : ReentrancyHit, hit ∈ hits ↔ hit.Shown c
  opens : ∀ call ∈ c.steps.toList, call.isExternalCall = true → ∃ f g, c.Opens call f g

/-- **Exposed calls are reported, and nothing else is.** On a trace whose steps carry their
positions, with the frames of its reconstruction, the detector of reentrancy in frames reports what
the trace shows. -/
theorem reportsExposed_of_build (steps : List Step) (tx : Transaction) (t : CallFrames)
    (settings : Settings) (hindex : ∀ (i : Nat) (s : Step), steps[i]? = some s → s.index = i)
    (hbuild : CallFrames.build steps tx = .ok t) :
    (Context.mk steps.toArray (some t) settings).ReportsExposed := by
  have h : (Context.mk steps.toArray (some t) settings).Rebuilt tx t := ⟨rfl, hbuild⟩
  have hindexed := Context.indexed_mk hindex (some t) settings
  refine ⟨⟨ReentrancyHit.all _, Detector.frameReentrancy_reports _, ?_,
    ReentrancyHit.pairwise_place_all h hindexed,
    fun hit => ReentrancyHit.mem_all_iff h hindexed⟩, ?_⟩
  · exact (Detector.frameReentrancy_reports _).exists_forall₂ fun hit _ => hit.reportedBy_finding
  intro call hs hcall
  obtain ⟨f, hf, howner⟩ := (h.framed hindexed).exists_frame hs
  exact ⟨f, h.exists_opens (hindexed.step?_index hs) hcall (h.frames_eq ▸ hf) howner⟩

/-- A call with a write of its own frame inside, a call of a contract that the machine provides, a
delegated call of the same contract, and writes between and behind them. -/
def exposingTrace : List Step := [
  ⟨0, 0, "CALL", 900, 700, 1, ["0x64", "0xbeef", "0x0", "0x0", "0x0", "0x0", "0x0"], []⟩,
  ⟨1, 0, "SSTORE", 300, 100, 2, ["0x0", "0x7"], []⟩,
  ⟨2, 1, "STOP", 200, 0, 2, [], []⟩,
  ⟨3, 1, "CALL", 190, 50, 1, ["0x64", "0x1", "0x0", "0x0", "0x0", "0x0", "0x0"], []⟩,
  ⟨4, 2, "SSTORE", 140, 20, 1, ["0x0", "0x1"], []⟩,
  ⟨5, 3, "DELEGATECALL", 120, 20, 1, ["0x64", "0x1", "0x0", "0x0", "0x0", "0x0"], []⟩,
  ⟨6, 4, "SSTORE", 100, 20, 1, ["0x5", "0x1"], []⟩,
  ⟨7, 5, "SSTORE", 80, 20, 1, ["0x0", "0x2"], []⟩,
  ⟨8, 6, "STOP", 60, 0, 1, [], []⟩]

/-- The hits of a context by their places, with the steps of their writes and with the numbers and
severities of their findings. -/
def Context.reentrancies (c : Context) : List (List Int × List Int) × List (String × Severity) :=
  ((ReentrancyHit.all c).map fun hit => (hit.place, hit.writes.map StorageWrite.step),
    (Detector.frameReentrancy.run c { label := "VUL" }).1.findings.map fun f => (f.id, f.severity))

theorem reportsExposed_of_build_exposingTrace :
    ∃ t, CallFrames.build exposingTrace {} = .ok t ∧
      (Context.mk exposingTrace.toArray (some t) {}).reentrancies =
        ([([0, 0], [4, 6, 7]), ([0, 0, 4], [4, 7]), ([0, 5], [6, 7])],
          [("VUL-0001", .high), ("VUL-0002", .medium), ("VUL-0003", .high)]) ∧
      (Context.mk exposingTrace.toArray (some t) {}).ReportsExposed := by
  have hingest : Step.ingest .bottomFirst (.entries (exposingTrace.map .step)) =
      .ok exposingTrace := rfl
  have hhits : (CallFrames.build exposingTrace {}).toOption.any fun t =>
      (Context.mk exposingTrace.toArray (some t) {}).reentrancies =
        ([([0, 0], [4, 6, 7]), ([0, 0, 4], [4, 7]), ([0, 5], [6, 7])],
          [("VUL-0001", .high), ("VUL-0002", .medium), ("VUL-0003", .high)]) := by decide +kernel
  obtain ⟨t, ht, hhits⟩ := exists_of_any_toOption hhits
  exact ⟨t, ht, of_decide_eq_true hhits, reportsExposed_of_build exposingTrace {} t {}
    (fun i s hs => Step.index_of_ingest hingest hs) ht⟩

end TraceAudit
