import TraceAudit.Proofs.Frame.Nesting

/-!
# The history of a frame

What the pass does to one frame, told without the pass: a frame is known by what opened it, it
starts as its **birth** record, each step changes it by an **event**, and what is still open at the
end of the trace is closed there. Which events concern a frame is a matter of `Nesting` alone:

* the step that leaves the scope of the frame closes it;
* a step that the frame owns spends gas, and adopts a child or halts.

The events touch five fields only, so that all others keep the value they are born with
(`opening_record`). Of these five, this module settles the children, the last step and the status.
-/

namespace TraceAudit

namespace Frame

/-- A frame as it was opened: without gas, end, status, cause of failure and children. -/
def opening (f : Frame) : Frame :=
  { f with gasSpent := 0, endStep := 0, status := .unknown, errorKind := none, children := [] }

/-- Whether the status of the frame is settled. -/
def Settled (f : Frame) : Prop :=
  f.status ≠ .unknown

section Events

variable (f : Frame) (s : Step) (gas last child : Int)

@[simp] theorem opening_spend : (f.spend gas).opening = f.opening := by
  rw [spend]; split <;> rfl

@[simp] theorem opening_adopt : (f.adopt child).opening = f.opening := rfl

@[simp] theorem opening_succeed : f.succeed.opening = f.opening := by
  rw [succeed]; split <;> rfl

@[simp] theorem opening_halt : (f.halt s).opening = f.opening := by
  rw [halt]
  split
  · rfl
  · split
    · exact opening_succeed f
    · rfl

@[simp] theorem opening_closeBefore : (f.closeBefore s last).opening = f.opening := by
  rw [closeBefore]
  split
  · rfl
  · exact opening_succeed f

@[simp] theorem opening_closeAtEnd : (f.closeAtEnd last).opening = f.opening :=
  opening_succeed f

/-! ### Children -/

@[simp] theorem children_spend : (f.spend gas).children = f.children := by
  rw [spend]; split <;> rfl

@[simp] theorem children_adopt : (f.adopt child).children = f.children ++ [child] := rfl

@[simp] theorem children_succeed : f.succeed.children = f.children := by
  rw [succeed]; split <;> rfl

@[simp] theorem children_halt : (f.halt s).children = f.children := by
  rw [halt]
  split
  · rfl
  · split
    · exact children_succeed f
    · rfl

@[simp] theorem children_closeBefore : (f.closeBefore s last).children = f.children := by
  rw [closeBefore]
  split
  · rfl
  · exact children_succeed f

@[simp] theorem children_closeAtEnd : (f.closeAtEnd last).children = f.children :=
  children_succeed f

/-! ### The last step -/

@[simp] theorem endStep_spend : (f.spend gas).endStep = f.endStep := by
  rw [spend]; split <;> rfl

@[simp] theorem endStep_adopt : (f.adopt child).endStep = f.endStep := rfl

@[simp] theorem endStep_halt : (f.halt s).endStep = f.endStep := by
  rw [halt]
  split
  · rfl
  · split
    · rw [succeed]; split <;> rfl
    · rfl

theorem startStep_succeed : f.succeed.startStep = f.startStep := by
  rw [succeed]; split <;> rfl

@[simp] theorem endStep_closeBefore :
    (f.closeBefore s last).endStep = max f.startStep last := by
  rw [closeBefore]
  split
  · rfl
  · exact congrArg (max · last) (startStep_succeed f)

@[simp] theorem endStep_closeAtEnd : (f.closeAtEnd last).endStep = max f.startStep last :=
  congrArg (max · last) (startStep_succeed f)

/-! ### The status -/

theorem settled_succeed : f.succeed.Settled := by
  rw [succeed, Settled]
  split
  · exact FrameStatus.noConfusion
  · assumption

theorem settled_closeBefore : (f.closeBefore s last).Settled := by
  rw [closeBefore]
  split
  · exact FrameStatus.noConfusion
  · exact settled_succeed f

theorem settled_closeAtEnd : (f.closeAtEnd last).Settled :=
  settled_succeed f

variable {f}

theorem Settled.spend (h : f.Settled) : (f.spend gas).Settled := by
  rw [Frame.spend]; split <;> exact h

theorem Settled.halt (h : f.Settled) : (f.halt s).Settled := by
  rw [Frame.halt]
  split
  · exact FrameStatus.noConfusion
  · split
    · exact settled_succeed f
    · exact h

end Events

end Frame

namespace Nesting

/-! ### Numbering -/

/-- The frames after `n` steps, in order, each known by what opened it: none stands for the
transaction. -/
def openers (steps : List Step) (n : Nat) : List (Option Nat) :=
  none :: (calls steps n).map some

/-- The id of a frame: frames are numbered in the order in which they are opened. -/
def idOf (steps : List Step) : Option Nat → Nat
  | none => 0
  | some c => (calls steps c).length + 1

variable {steps : List Step} {c i n : Nat} {o : Option Nat}

theorem some_mem_openers_iff : some c ∈ openers steps n ↔ c < n ∧ (callAt? steps c).isSome := by
  rw [openers, List.mem_cons, ← mem_calls_iff]
  simp

theorem none_mem_openers (steps : List Step) (n : Nat) : none ∈ openers steps n :=
  List.mem_cons_self

theorem openers_succ (steps : List Step) (n : Nat) :
    openers steps (n + 1) =
      openers steps n ++ if (callAt? steps n).isSome then [some n] else [] := by
  rw [openers, calls_succ, List.map_append, openers, List.cons_append]
  split <;> rfl

theorem length_openers (steps : List Step) (n : Nat) :
    (openers steps n).length = idOf steps (some n) := by
  rw [openers, List.length_cons, List.length_map, idOf]

theorem getElem?_openers (ho : o ∈ openers steps n) :
    (openers steps n)[idOf steps o]? = some o := by
  cases o with
  | none => rfl
  | some c =>
    obtain ⟨hlt, hc⟩ := some_mem_openers_iff.mp ho
    rw [openers, idOf, List.getElem?_cons_succ, List.getElem?_map, getElem?_calls hc hlt,
      Option.map_some]

theorem openers_nodup (steps : List Step) (n : Nat) : (openers steps n).Nodup := by
  have hcalls : (calls steps n).Nodup := (calls_pairwise steps n).imp fun h => Nat.ne_of_lt h
  refine List.nodup_cons.mpr ⟨by simp, ?_⟩
  exact (List.nodup_map_iff (Option.some_injective Nat)).mpr hcalls

/-- A frame stands at the place that its id names. -/
theorem eq_idOf_of_getElem? (h : (openers steps n)[i]? = some o) : i = idOf steps o := by
  have hi : i < (openers steps n).length := (List.getElem?_eq_some_iff.mp h).1
  refine (List.getElem?_inj hi (openers_nodup steps n)).mp ?_
  rw [h, getElem?_openers (List.mem_of_getElem? h)]

theorem idOf_inj {o' : Option Nat} (ho : o ∈ openers steps n) (ho' : o' ∈ openers steps n) :
    idOf steps o = idOf steps o' ↔ o = o' := by
  refine ⟨fun h => ?_, fun h => h ▸ rfl⟩
  have := getElem?_openers ho
  rw [h, getElem?_openers ho'] at this
  exact (Option.some_inj.mp this).symm

theorem owner_mem_openers (h : i ≤ n) : owner steps i ∈ openers steps n := by
  cases ho : owner steps i with
  | none => exact none_mem_openers steps n
  | some c =>
    exact some_mem_openers_iff.mpr ⟨by have := owner_lt ho; omega, (encloses_of_owner ho).1⟩

theorem length_calls_lt_of_lt {c' : Nat} (hc : (callAt? steps c).isSome) (h : c < c') :
    (calls steps c).length < (calls steps c').length := by
  have := getElem?_calls hc h
  exact (List.getElem?_eq_some_iff.mp this).1

/-- An owner is opened before what it owns. -/
theorem idOf_owner_lt (steps : List Step) (i : Nat) :
    idOf steps (owner steps i) < idOf steps (some i) := by
  cases ho : owner steps i with
  | none => exact Nat.succ_pos _
  | some c =>
    exact Nat.succ_lt_succ (length_calls_lt_of_lt (encloses_of_owner ho).1 (owner_lt ho))

/-! ### Birth -/

section History

variable (steps : List Step) (tx : Transaction)

/-- The decoded operands of the call at a position. -/
def operandsAt (c : Nat) : CallOperands :=
  ((steps[c]?.bind fun s => (CallOp.ofName? s.op).bind fun op => (s.callOperands op).toOption)).getD
    {}

/-- The scope of a frame while it is open. The depth of a frame is the number of calls around it. -/
def scopeOf : Option Nat → Scope
  | none => ⟨0, 0, 0, (FrameWalk.rootFrame tx (steps.length - 1)).target⟩
  | some c =>
    ⟨idOf steps (some c), (enclosing steps c).length + 1, depthAt steps c,
      (operandsAt steps c).target⟩

/-- A frame when it is opened. -/
def birth : Option Nat → Frame
  | none => FrameWalk.rootFrame tx (steps.length - 1)
  | some c =>
    match steps[c]?, callAt? steps c with
    | some s, some op =>
      FrameWalk.child s c op (scopeOf steps tx (owner steps c)) (idOf steps (some c))
        (operandsAt steps c)
    | _, _ => default

/-! ### Events -/

/-- Whether the scope of a frame is open after `n` steps. That of the transaction always is. -/
def isOpen (n : Nat) : Option Nat → Bool
  | none => true
  | some c => c ∈ opened steps n

/-- Whether the step at `i` leaves the scope of a frame. That of the transaction is never left. -/
def isLeft (i : Nat) : Option Nat → Bool
  | none => false
  | some c => c ∈ opened steps i ∧ depthAt steps i ≤ depthAt steps c

/-- What the step `s` at `i` does to a frame that it leaves. -/
def closing (s : Step) (i : Nat) (o : Option Nat) (f : Frame) : Frame :=
  if isLeft steps i o then f.closeBefore s ((i : Int) - 1) else f

/-- What the step `s` at `i` does to the frame that owns it. -/
def working (s : Step) (i : Nat) (o : Option Nat) (f : Frame) : Frame :=
  if owner steps i = o then
    match CallOp.ofName? s.op with
    | some _ => (f.spend s.gasCost).adopt (idOf steps (some i))
    | none => (f.spend s.gasCost).halt s
  else f

/-- A frame after the first `n` steps. -/
def history : Nat → Option Nat → Frame
  | 0, o => birth steps tx o
  | n + 1, o =>
    match steps[n]? with
    | some s => working steps s n o (closing steps s n o (history n o))
    | none => history n o

/-- A frame after the whole trace. -/
def record (o : Option Nat) : Frame :=
  let f := history steps tx steps.length o
  if isOpen steps steps.length o then f.closeAtEnd ((steps.length : Int) - 1) else f

end History

section Fields

variable {tx : Transaction} {s : Step} {op : CallOp} {f : Frame} {j : Nat}

theorem history_succ (hs : steps[n]? = some s) (o : Option Nat) :
    history steps tx (n + 1) o =
      working steps s n o (closing steps s n o (history steps tx n o)) := by
  rw [history, hs]

theorem birth_some (hs : steps[c]? = some s) (hop : CallOp.ofName? s.op = some op) :
    birth steps tx (some c) =
      FrameWalk.child s c op (scopeOf steps tx (owner steps c)) (idOf steps (some c))
        (operandsAt steps c) := by
  rw [birth, callAt?_of_getElem? hs, hs, hop]

/-- A call has a step and an operation. -/
theorem exists_of_callAt? (h : (callAt? steps c).isSome) :
    ∃ s op, steps[c]? = some s ∧ CallOp.ofName? s.op = some op := by
  obtain ⟨op, hop⟩ := Option.isSome_iff_exists.mp h
  obtain ⟨s, hs, hop⟩ := Option.bind_eq_some_iff.mp hop
  exact ⟨s, op, hs, hop⟩

/-- For a call, being left at a step is what `Leaves` says. -/
theorem isLeft_some_iff (hc : (callAt? steps c).isSome) :
    isLeft steps i (some c) = true ↔ Leaves steps c i := by
  rw [isLeft, Bool.decide_and, Bool.and_eq_true, decide_eq_true_eq, decide_eq_true_eq,
    mem_opened_iff]
  exact ⟨fun ⟨⟨_, hlt, hdeep⟩, hout⟩ => ⟨hlt, hout, hdeep⟩,
    fun ⟨hlt, hout, hdeep⟩ => ⟨⟨hc, hlt, hdeep⟩, hout⟩⟩

/-- A scope is left once only. -/
theorem Leaves.not_isLeft (hc : (callAt? steps c).isSome) (h : Leaves steps c j) (hij : i ≠ j) :
    isLeft steps i (some c) ≠ true :=
  fun hleft => hij (((isLeft_some_iff hc).mp hleft).unique h)

/-- Nothing happens to a frame before the step after its call. -/
theorem history_of_le (h : n ≤ c + 1) : history steps tx n (some c) = birth steps tx (some c) := by
  induction n with
  | zero => rfl
  | succ n ih =>
    -- a call neither is open nor owns a step as long as it lies ahead
    have hleft : isLeft steps n (some c) ≠ true := fun hleft => by
      have := (mem_opened_iff.mp (of_decide_eq_true hleft).1).2.1
      omega
    have howner : owner steps n ≠ some c := fun howner => by
      have := owner_lt howner
      omega
    rw [history]
    split
    · rw [working, if_neg howner, closing, if_neg hleft, ih (by omega)]
    · exact ih (by omega)

/-! ### What a frame is born with -/

theorem opening_closing : (closing steps s i o f).opening = f.opening := by
  rw [closing]
  split
  · exact Frame.opening_closeBefore f s _
  · rfl

theorem opening_working : (working steps s i o f).opening = f.opening := by
  rw [working]
  split
  · split <;> simp
  · rfl

variable (steps tx) in
theorem opening_history (n : Nat) (o : Option Nat) :
    (history steps tx n o).opening = (birth steps tx o).opening := by
  induction n with
  | zero => rfl
  | succ n ih =>
    rw [history]
    split
    · rw [opening_working, opening_closing, ih]
    · exact ih

variable (steps tx) in
theorem opening_record (o : Option Nat) :
    (record steps tx o).opening = (birth steps tx o).opening := by
  rw [record]
  split
  · rw [Frame.opening_closeAtEnd, opening_history]
  · exact opening_history steps tx _ o

theorem startStep_history (n : Nat) (o : Option Nat) :
    (history steps tx n o).startStep = (birth steps tx o).startStep := by
  have h := congrArg Frame.startStep (opening_history steps tx n o)
  exact h

theorem startStep_birth (hc : (callAt? steps c).isSome) :
    (birth steps tx (some c)).startStep = c := by
  obtain ⟨s, op, hs, hop⟩ := exists_of_callAt? hc
  rw [birth_some hs hop, FrameWalk.child]

/-! ### Children -/

theorem children_birth (o : Option Nat) : (birth steps tx o).children = [] := by
  cases o with
  | none => rfl
  | some c => rw [birth]; split <;> rfl

theorem children_working (hs : steps[n]? = some s) :
    (working steps s n o f).children =
      f.children ++ if owner steps n = o ∧ (callAt? steps n).isSome
        then [(idOf steps (some n) : Int)] else [] := by
  rw [working, callAt?_of_getElem? hs]
  by_cases ho : owner steps n = o
  · rw [if_pos ho]
    cases hop : CallOp.ofName? s.op with
    | none => simp
    | some op => simp [ho]
  · rw [if_neg ho, if_neg fun h => ho h.1, List.append_nil]

theorem children_closing : (closing steps s i o f).children = f.children := by
  rw [closing]
  split
  · exact Frame.children_closeBefore f s _
  · rfl

variable (steps tx) in
/-- The children of a frame are the frames of the calls that it owns, in order. -/
theorem children_history (n : Nat) (o : Option Nat) :
    (history steps tx n o).children =
      ((calls steps n).filter fun i => owner steps i = o).map fun i =>
        (idOf steps (some i) : Int) := by
  induction n with
  | zero => exact children_birth o
  | succ n ih =>
    rw [calls_succ, List.filter_append, List.map_append, ← ih, history]
    cases hs : steps[n]? with
    | none =>
      have hcall : callAt? steps n = none := by rw [callAt?, hs, Option.bind_none]
      simp [hcall]
    | some s =>
      rw [children_working hs, children_closing]
      by_cases hcall : (callAt? steps n).isSome <;> by_cases ho : owner steps n = o <;>
        simp [hcall, ho]

variable (steps tx) in
theorem children_record (o : Option Nat) :
    (record steps tx o).children =
      ((calls steps steps.length).filter fun i => owner steps i = o).map fun i =>
        (idOf steps (some i) : Int) := by
  rw [record, ← children_history steps tx]
  split
  · exact Frame.children_closeAtEnd _ _
  · rfl

/-! ### The last step -/

theorem endStep_working : (working steps s i o f).endStep = f.endStep := by
  rw [working]
  split
  · split <;> simp
  · rfl

theorem endStep_history_succ (hs : steps[n]? = some s) (hc : (callAt? steps c).isSome) :
    (history steps tx (n + 1) (some c)).endStep =
      if isLeft steps n (some c) then max (c : Int) (n - 1)
      else (history steps tx n (some c)).endStep := by
  rw [history_succ hs, endStep_working, closing]
  split
  · rw [Frame.endStep_closeBefore, startStep_history, startStep_birth hc]
  · rfl

theorem endStep_history_of_leaves (hc : (callAt? steps c).isSome) (hj : Leaves steps c j)
    (hjn : j < n) (hn : n ≤ steps.length) :
    (history steps tx n (some c)).endStep = (j : Int) - 1 := by
  induction n, hjn using Nat.le_induction with
  | base =>
    have := hj.1
    rw [endStep_history_succ (List.getElem?_eq_getElem hn) hc,
      if_pos ((isLeft_some_iff hc).mpr hj)]
    omega
  | succ n hjn ih =>
    -- a scope is left once only, so no later step touches the end
    rw [endStep_history_succ (List.getElem?_eq_getElem hn) hc,
      if_neg (hj.not_isLeft hc (Nat.ne_of_gt hjn))]
    exact ih (by omega)

theorem endStep_record_none :
    (record steps tx none).endStep = max 0 ((steps.length : Int) - 1) := by
  rw [record, isOpen, if_pos rfl, Frame.endStep_closeAtEnd, startStep_history]
  rfl

/-- A frame that no step leaves ends with the trace. -/
theorem endStep_record_of_opened (h : c ∈ opened steps steps.length) :
    (record steps tx (some c)).endStep = (steps.length : Int) - 1 := by
  obtain ⟨hc, hlt, -⟩ := mem_opened_iff.mp h
  rw [record, isOpen, if_pos (decide_eq_true h), Frame.endStep_closeAtEnd, startStep_history,
    startStep_birth hc]
  omega

/-- A frame that a step leaves ends before this step. -/
theorem endStep_record_of_leaves (hc : (callAt? steps c).isSome) (hj : Leaves steps c j)
    (hlt : j < steps.length) : (record steps tx (some c)).endStep = (j : Int) - 1 := by
  have hopen : ¬ isOpen steps steps.length (some c) = true := fun h =>
    hj.not_mem_opened hlt (of_decide_eq_true h)
  rw [record, if_neg hopen]
  exact endStep_history_of_leaves hc hj hlt (Nat.le_refl _)

/-! ### The status -/

theorem Settled.working (h : f.Settled) : (working steps s i o f).Settled := by
  rw [Nesting.working]
  split
  · split
    · exact h.spend s.gasCost
    · exact (h.spend s.gasCost).halt s
  · exact h

theorem Settled.closing (h : f.Settled) : (closing steps s i o f).Settled := by
  rw [Nesting.closing]
  split
  · exact Frame.settled_closeBefore f s _
  · exact h

theorem settled_history_of_leaves (hc : (callAt? steps c).isSome) (hj : Leaves steps c j)
    (hjn : j < n) (hn : n ≤ steps.length) : (history steps tx n (some c)).Settled := by
  induction n, hjn using Nat.le_induction with
  | base =>
    rw [history_succ (List.getElem?_eq_getElem hn), closing,
      if_pos ((isLeft_some_iff hc).mpr hj)]
    exact Settled.working (Frame.settled_closeBefore _ _ _)
  | succ n hjn ih =>
    rw [history_succ (List.getElem?_eq_getElem hn)]
    exact Settled.working (Settled.closing (ih (by omega)))

/-- **No frame stays without a status.** -/
theorem settled_record (ho : o ∈ openers steps steps.length) : (record steps tx o).Settled := by
  rw [record]
  split
  · exact Frame.settled_closeAtEnd _ _
  · next hopen =>
    cases o with
    | none => exact absurd rfl hopen
    | some c =>
      obtain ⟨hlt, hc⟩ := some_mem_openers_iff.mp ho
      -- what is not open at the end was left by some step, which settled it
      rcases mem_opened_or_leaves hc hlt with h | ⟨j, hj, hleaves⟩
      · exact absurd (decide_eq_true h) hopen
      · exact settled_history_of_leaves hc hleaves hj (Nat.le_refl _)

end Fields

end Nesting

end TraceAudit
