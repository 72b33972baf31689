import TraceAudit.Proofs.Frame.Gas
import TraceAudit.Proofs.Frame.Truncation

/-!
# How frames end

The status of a frame is settled at several places of the pass: a halt settles it while the frame is
current, the step that leaves the frame settles it if no halt did, and so does the end of the trace.
A halt in failure overrides what came before, any other one does not.

Of all the steps of a trace only two things matter for it in the end: the halts among the frame's
own steps, in order, and the step behind the frame (`Frame.EndsBy`). The own steps are folded up
along the history of the frame (`ending_history`), until some step leaves the frame and the ending
is settled (`ending_record`).
-/

namespace TraceAudit

/-- What is known of the end of a frame: its status and the instruction that made it fail. -/
structure Ending where
  status : FrameStatus
  cause : Option String
deriving DecidableEq, Repr

namespace Ending

/-- Nothing is known yet. -/
def pending : Ending := ⟨.unknown, none⟩

/-- What a step of the frame's own adds. -/
def andOwn (e : Ending) (s : Step) : Ending :=
  if s.isAbnormalHalt then ⟨.failed, some s.op⟩
  else if s.isNormalHalt ∧ e.status = .unknown then ⟨.success, e.cause⟩
  else e

/-- What the first step behind the frame settles, or the end of the trace where there is none. -/
def settledBy (outside : Option Step) (e : Ending) : Ending :=
  if e.status = .unknown then
    match outside.filter Step.isAbnormalHalt with
    | some halt => ⟨.failed, some halt.op⟩
    | none => ⟨.success, e.cause⟩
  else e

/-- A cause is given for failures and for nothing else. -/
def Coherent (e : Ending) : Prop :=
  e.cause.isSome ↔ e.status = .failed

variable {e : Ending} {s : Step} {own : List Step} {outside : Option Step}

/-- A call does not halt. -/
theorem andOwn_of_call {op : CallOp} (hop : CallOp.ofName? s.op = some op) : e.andOwn s = e := by
  obtain ⟨habnormal, hnormal⟩ : s.isAbnormalHalt = false ∧ s.isNormalHalt = false := by
    rw [Step.isAbnormalHalt, Step.isNormalHalt, ← CallOp.name_of_ofName? hop]
    cases op <;> decide
  simp [andOwn, habnormal, hnormal]

/-- Without a halt in failure, own steps settle at most a success, and this only if nothing was
settled before. -/
theorem foldl_andOwn_of_forall_not (h : ∀ s ∈ own, s.isAbnormalHalt = false) (e : Ending) :
    own.foldl andOwn e =
      if e.status = .unknown ∧ ∃ s ∈ own, s.isNormalHalt = true then ⟨.success, e.cause⟩
      else e := by
  induction own generalizing e with
  | nil => simp
  | cons s own ih =>
    obtain ⟨hs, hown⟩ := List.forall_mem_cons.mp h
    rw [List.foldl_cons, ih hown, andOwn, hs]
    by_cases hnormal : s.isNormalHalt = true <;> by_cases hunknown : e.status = .unknown <;>
      simp [hnormal, hunknown]

/-- **The last halt in failure settles the end**, whatever halts came before or come behind. -/
theorem foldl_andOwn_of_last {before behind : List Step} (hs : s.isAbnormalHalt = true)
    (hbehind : ∀ u ∈ behind, u.isAbnormalHalt = false) (e : Ending) :
    (before ++ s :: behind).foldl andOwn e = ⟨.failed, some s.op⟩ := by
  rw [List.foldl_append, List.foldl_cons, foldl_andOwn_of_forall_not hbehind, andOwn, hs,
    if_pos rfl]
  exact if_neg fun h => nomatch h.1

theorem Coherent.andOwn (h : e.Coherent) (s : Step) : (e.andOwn s).Coherent := by
  rw [Ending.andOwn]
  split
  · exact iff_of_true rfl rfl
  · split
    · next hunknown =>
      rw [Coherent, hunknown.2] at h
      rw [Coherent, h]
      exact iff_of_false nofun nofun
    · exact h

theorem coherent_foldl_andOwn (own : List Step) : (own.foldl andOwn pending).Coherent := by
  refine List.foldlRecOn own andOwn (motive := Coherent) ?_ fun e he s _ => he.andOwn s
  exact iff_of_false nofun nofun

theorem Coherent.settledBy (h : e.Coherent) (outside : Option Step) :
    (e.settledBy outside).Coherent := by
  rw [Ending.settledBy]
  split
  · next hunknown =>
    split
    · exact iff_of_true rfl rfl
    · rw [Coherent, hunknown] at h
      rw [Coherent, h]
      exact iff_of_false nofun nofun
  · exact h

end Ending

namespace Frame

/-- What the frame says of its end. -/
def ending (f : Frame) : Ending := ⟨f.status, f.errorKind⟩

section Events

variable (f : Frame) (s : Step) (gas last child : Int)

@[simp] theorem ending_spend : (f.spend gas).ending = f.ending := by
  rw [spend]; split <;> rfl

@[simp] theorem ending_adopt : (f.adopt child).ending = f.ending := rfl

@[simp] theorem ending_endAt : (f.endAt last).ending = f.ending := rfl

@[simp] theorem ending_fail (op : String) : (f.fail op).ending = ⟨.failed, some op⟩ := rfl

theorem ending_succeed : f.succeed.ending = f.ending.settledBy none := by
  rw [succeed]
  by_cases hunknown : f.status = .unknown
  · rw [if_pos hunknown]
    exact (if_pos hunknown).symm
  · rw [if_neg hunknown]
    exact (if_neg hunknown).symm

theorem ending_halt : (f.halt s).ending = f.ending.andOwn s := by
  rw [halt, Ending.andOwn]
  by_cases habnormal : s.isAbnormalHalt = true
  · rw [if_pos habnormal, if_pos habnormal, ending_fail]
  · rw [if_neg habnormal, if_neg habnormal]
    by_cases hnormal : s.isNormalHalt = true
    · rw [if_pos hnormal, ending_succeed, Ending.settledBy]
      simp [hnormal]
    · simp [hnormal]

theorem ending_closeBefore : (f.closeBefore s last).ending = f.ending.settledBy (some s) := by
  rw [closeBefore, ending_endAt]
  by_cases habnormal : s.isAbnormalHalt = true
  · have hsettled : f.ending.settledBy (some s) =
        if f.status = .unknown then ⟨.failed, some s.op⟩ else f.ending := by
      rw [Ending.settledBy, Option.filter_some_pos habnormal]
      rfl
    by_cases hunknown : f.status = .unknown
    · rw [if_pos ⟨hunknown, habnormal⟩, hsettled, if_pos hunknown, ending_fail]
    · rw [if_neg fun h => hunknown h.1, hsettled, if_neg hunknown, succeed, if_neg hunknown]
  · rw [if_neg fun h => habnormal h.2, ending_succeed, Ending.settledBy, Ending.settledBy,
      Option.filter_some_neg (Bool.eq_false_iff.mpr habnormal)]
    rfl

theorem ending_closeAtEnd : (f.closeAtEnd last).ending = f.ending.settledBy none :=
  ending_succeed f

end Events

/-- The step behind the frame of a call, if the trace goes on. Behind the frame of the transaction
there is none. -/
def stepBehind (steps : List Step) (f : Frame) : Option Step :=
  if f.isRoot then none else steps[(f.endStep + 1).toNat]?

/-- **How a frame ends** is told by its own steps, and if there is no halt among these, by the step
behind the frame. -/
structure EndsBy (own : List Step) (outside : Option Step) (f : Frame) : Prop where
  /-- The last own halt in failure is what made the frame fail. -/
  of_abnormalHalt : ∀ before halt behind, own = before ++ halt :: behind →
    halt.isAbnormalHalt = true → (∀ s ∈ behind, s.isAbnormalHalt = false) →
    f.status = .failed ∧ f.errorKind = some halt.op
  /-- Without one, any other own halt is a success. -/
  of_normalHalt : (∀ s ∈ own, s.isAbnormalHalt = false) → (∃ s ∈ own, s.isNormalHalt = true) →
    f.status = .success ∧ f.errorKind = none
  /-- Without an own halt, a halt in failure right behind the frame is what made it fail. -/
  of_outside : (∀ s ∈ own, s.isAbnormalHalt = false ∧ s.isNormalHalt = false) →
    ∀ halt, outside = some halt → halt.isAbnormalHalt = true →
    f.status = .failed ∧ f.errorKind = some halt.op
  /-- Without any of these, the frame is a success. -/
  otherwise : (∀ s ∈ own, s.isAbnormalHalt = false ∧ s.isNormalHalt = false) →
    (∀ s, outside = some s → s.isAbnormalHalt = false) →
    f.status = .success ∧ f.errorKind = none

/-- The clauses say what folding and settling computes. -/
theorem endsBy_of_ending {f : Frame} {own : List Step} {outside : Option Step}
    (h : f.ending = (own.foldl Ending.andOwn .pending).settledBy outside) :
    f.EndsBy own outside := by
  have hending : ∀ {status : FrameStatus} {cause : Option String},
      (own.foldl Ending.andOwn .pending).settledBy outside = ⟨status, cause⟩ →
        f.status = status ∧ f.errorKind = cause := by
    intro status cause he
    rw [he] at h
    exact ⟨congrArg Ending.status h, congrArg Ending.cause h⟩
  -- without an own halt nothing is settled before the step behind the frame
  have hpending : (∀ s ∈ own, s.isAbnormalHalt = false ∧ s.isNormalHalt = false) →
      own.foldl Ending.andOwn .pending = .pending := by
    intro hnone
    rw [Ending.foldl_andOwn_of_forall_not fun s hs => (hnone s hs).1, if_neg]
    rintro ⟨-, s, hs, hnormal⟩
    rw [(hnone s hs).2] at hnormal
    exact nomatch hnormal
  constructor
  · rintro before halt behind rfl hhalt hbehind
    refine hending ?_
    rw [Ending.foldl_andOwn_of_last hhalt hbehind]
    rfl
  · intro hnone hnormal
    refine hending ?_
    rw [Ending.foldl_andOwn_of_forall_not hnone, if_pos ⟨rfl, hnormal⟩]
    rfl
  · rintro hnone halt rfl hhalt
    refine hending ?_
    rw [hpending hnone, Ending.settledBy, Option.filter_some_pos hhalt]
    rfl
  · intro hnone houtside
    refine hending ?_
    have hfilter : outside.filter Step.isAbnormalHalt = none := by
      rw [Option.filter_eq_none_iff]
      intro s hs
      simp [houtside s hs]
    rw [hpending hnone, Ending.settledBy, hfilter]
    rfl

end Frame

namespace Nesting

variable {steps : List Step} {tx : Transaction} {s : Step} {f : Frame} {c i j n : Nat}
  {o : Option Nat}

/-! ### The ending along the history -/

theorem ending_birth (o : Option Nat) : (birth steps tx o).ending = .pending := by
  cases o with
  | none => rfl
  | some c => rw [birth]; split <;> rfl

theorem ending_working :
    (working steps s i o f).ending = if owner steps i = o then f.ending.andOwn s else f.ending := by
  rw [working]
  split
  · split
    · next hop => rw [Frame.ending_adopt, Frame.ending_spend, Ending.andOwn_of_call hop]
    · rw [Frame.ending_halt, Frame.ending_spend]
  · rfl

/-- **As long as no step leaves a frame, its own steps tell its end.** -/
theorem ending_history (hn : n ≤ steps.length) (hopen : ∀ i < n, isLeft steps i o ≠ true) :
    (history steps tx n o).ending = (owned steps n o).foldl Ending.andOwn .pending := by
  induction n with
  | zero => exact ending_birth o
  | succ n ih =>
    have hs : steps[n]? = some steps[n] := List.getElem?_eq_getElem hn
    rw [history_succ hs, ending_working, closing, if_neg (hopen n (Nat.lt_succ_self n)),
      ih (by omega) fun i hi => hopen i (by omega), owned_succ hs, List.foldl_append]
    split <;> rfl

theorem owned_eq_of_leaves (hc : (callAt? steps c).isSome) (hj : Leaves steps c j) (hjn : j ≤ n)
    (hn : n ≤ steps.length) : owned steps n (some c) = owned steps j (some c) := by
  induction n, hjn using Nat.le_induction with
  | base => rfl
  | succ n hjn ih =>
    have hs : steps[n]? = some steps[n] := List.getElem?_eq_getElem hn
    rw [owned_succ hs, if_neg (hj.owner_ne hc hjn), List.append_nil, ih (by omega)]

/-- A scope that is open has not been left. -/
theorem not_isLeft_of_isOpen (hopen : isOpen steps n o = true) (hi : i < n) :
    isLeft steps i o ≠ true := by
  intro hleft
  cases o with
  | none => exact Bool.false_ne_true hleft
  | some c =>
    have hmem : c ∈ opened steps n := of_decide_eq_true hopen
    have hleaves : Leaves steps c i := (isLeft_some_iff (mem_opened_iff.mp hmem).1).mp hleft
    exact hleaves.not_mem_opened hi hmem

/-! ### The ending of a frame -/

/-- Behind a frame that is open at the end of the trace there is no step. -/
theorem stepBehind_of_isOpen (hopen : isOpen steps steps.length o = true) :
    (record steps tx o).stepBehind steps = none := by
  rw [Frame.stepBehind]
  cases o with
  | none => rw [Frame.isRoot, parent_record_none]; rfl
  | some c =>
    have hlast : (record steps tx (some c)).endStep = (steps.length : Int) - 1 :=
      endStep_record_of_opened (of_decide_eq_true hopen)
    have hbehind : (steps.length - 1 + 1 : Int).toNat = steps.length := by omega
    rw [hlast, hbehind, List.getElem?_eq_none (Nat.le_refl _)]
    split <;> rfl

/-- Behind a frame that some step leaves there is this step. -/
theorem stepBehind_of_leaves (hc : (callAt? steps c).isSome) (hj : Leaves steps c j)
    (hlt : j < steps.length) : (record steps tx (some c)).stepBehind steps = steps[j]? := by
  have hroot : (record steps tx (some c)).isRoot ≠ true := by
    rw [Frame.isRoot, parent_record_some hc]
    exact Bool.false_ne_true
  have hbehind : (j - 1 + 1 : Int).toNat = j := by omega
  rw [Frame.stepBehind, if_neg hroot, endStep_record_of_leaves hc hj hlt, hbehind]

variable (tx) in
/-- **The end of a frame** is what its own steps tell, settled by the step behind it. -/
theorem ending_record (ho : o ∈ openers steps steps.length) :
    (record steps tx o).ending =
      ((owned steps steps.length o).foldl Ending.andOwn .pending).settledBy
        ((record steps tx o).stepBehind steps) := by
  by_cases hopen : isOpen steps steps.length o = true
  · rw [stepBehind_of_isOpen hopen, record, if_pos hopen, Frame.ending_closeAtEnd,
      ending_history (Nat.le_refl _) fun i hi => not_isLeft_of_isOpen hopen hi]
  · -- only the frame of a call can have been left
    obtain ⟨c, rfl⟩ : ∃ c, o = some c :=
      Option.ne_none_iff_exists'.mp fun hnone => hopen (hnone ▸ rfl)
    obtain ⟨hlt, hc⟩ := some_mem_openers_iff.mp ho
    obtain ⟨j, hjlt, hj⟩ : ∃ j < steps.length, Leaves steps c j :=
      (mem_opened_or_leaves hc hlt).resolve_left fun h => hopen (decide_eq_true h)
    have hs : steps[j]? = some steps[j] := List.getElem?_eq_getElem hjlt
    rw [stepBehind_of_leaves hc hj hjlt, hs, record, if_neg hopen, history_eq_of_leaves hc hj hjlt,
      history_succ hs, ending_working, if_neg (hj.owner_ne hc (Nat.le_refl j)), closing,
      if_pos ((isLeft_some_iff hc).mpr hj), Frame.ending_closeBefore,
      ending_history (Nat.le_of_lt hjlt) fun i hi => hj.not_isLeft hc (Nat.ne_of_lt hi),
      owned_eq_of_leaves hc hj (Nat.le_of_lt hjlt) (Nat.le_refl _)]

end Nesting

open Nesting

/-- **Every frame ends as its own steps and the step behind it tell.** So every frame has a status,
and a cause of failure is given for those that failed and for no others. -/
theorem endsBy_of_build (steps : List Step) (tx : Transaction) (t : CallFrames)
    (hbuild : CallFrames.build steps tx = .ok t) :
    ∀ f ∈ t.frames, f.EndsBy (t.stepsOf steps f.id) (f.stepBehind steps) ∧
      (f.errorKind.isSome ↔ f.status = .failed) ∧ f.status ≠ .unknown := by
  intro f hf
  obtain rfl := build_eq_reconstruction_of_mem hbuild hf
  obtain ⟨o, ho, rfl⟩ := mem_frames_iff.mp hf
  have hending := ending_record tx ho
  have hcoherent := (Ending.coherent_foldl_andOwn (owned steps steps.length o)).settledBy
    ((record steps tx o).stepBehind steps)
  rw [← hending] at hcoherent
  rw [id_record ho, stepsOf_reconstruction ho]
  exact ⟨Frame.endsBy_of_ending hending, hcoherent, settled_record ho⟩

/-- A call that returns and then fails, a call that a failing step leaves before it has begun, and a
call that the trace ends in. -/
def haltingTrace : List Step :=
  [(1, "CALL"), (2, "RETURN"), (2, "INVALID"), (2, "STOP"), (1, "CALL"), (1, "REVERT"),
    (1, "CREATE"), (2, "ADD")].map fun s => ⟨0, 0, s.2, 0, 3, s.1, [], []⟩

theorem endsBy_of_build_haltingTrace :
    ∃ t, CallFrames.build haltingTrace {} = .ok t ∧
      t.frames.map Frame.ending =
        [⟨.failed, some "REVERT"⟩, ⟨.failed, some "INVALID"⟩, ⟨.failed, some "REVERT"⟩,
          ⟨.success, none⟩] ∧
      ∀ f ∈ t.frames, f.EndsBy (t.stepsOf haltingTrace f.id) (f.stepBehind haltingTrace) ∧
        (f.errorKind.isSome ↔ f.status = .failed) ∧ f.status ≠ .unknown :=
  ⟨_, rfl, by decide, endsBy_of_build haltingTrace {} _ rfl⟩

end TraceAudit
