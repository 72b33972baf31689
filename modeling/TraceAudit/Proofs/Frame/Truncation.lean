import TraceAudit.Proofs.Frame.Integrity
import TraceAudit.Proofs.Frame.Refusal

/-!
# Reconstruction of the beginning of a trace

Reconstruction never looks ahead: what it says of the first `n` steps of a trace it says of the
whole trace, too. `CallFrames.Truncated` compares the frames of the whole trace with those of its
beginning:

* the steps of the beginning have the same owners;
* the frames of the beginning are those that start in it, the frame of the transaction among them,
  with all that they are born with;
* they end where they end in the whole trace, or with the beginning;
* their children are those that start in the beginning;
* a frame that some step of the beginning leaves is the same in every field.

The frame that ends at the last step of the beginning is left out of the last clause: it is closed
by the end of the trace, while in the whole trace a later step may tell that it failed.

All of it rests on `history_take`: the history of a frame after `i` steps depends on these steps
only. The frame of the transaction is the exception, since it is born with the last step of its
trace; of it, only the fields that its history settles by formulas are compared.
-/

namespace TraceAudit

namespace Frame

/-- The frame `p` of the beginning with `n` steps is what is left of the frame `f` of the whole
trace. -/
structure Truncated (whole : CallFrames) (n : Nat) (f p : Frame) : Prop where
  /-- All but gas, end, status, cause of failure and children. -/
  opening : p.opening = f.opening
  endStep : p.endStep = min f.endStep ((n : Int) - 1)
  children : p.children = f.children.filter fun k =>
    whole.frames.any fun g => g.id = k ∧ g.startStep < n
  complete : f.endStep ≤ (n : Int) - 2 → p = f

end Frame

/-- The frames `part` of the first `n` steps are what is left of the frames `whole` of a trace. -/
structure CallFrames.Truncated (n : Nat) (whole part : CallFrames) : Prop where
  /-- Every step of the beginning has an owner. -/
  size : part.stepToFrame.size = n
  owners : part.stepToFrame.toList = whole.stepToFrame.toList.take n
  /-- The frame of the transaction comes first in both. -/
  root : ∃ f p, whole.frames.head? = some f ∧ part.frames.head? = some p ∧ f.id = 0 ∧
    f.startStep = 0 ∧ Frame.Truncated whole n f p
  frames : List.Forall₂ (Frame.Truncated whole n)
    (whole.frames.filter fun f => f.startStep < n) part.frames
  complete : ∀ f ∈ whole.frames, f.endStep ≤ (n : Int) - 2 → f ∈ part.frames

namespace Nesting

variable {steps : List Step} {tx : Transaction} {n i c j : Nat} {o : Option Nat}

/-! ### Positions of the beginning -/

theorem depthAt_take (h : i < n) : depthAt (steps.take n) i = depthAt steps i := by
  rw [depthAt, depthAt, List.getElem?_take_of_lt h]

theorem callAt?_take (h : i < n) : callAt? (steps.take n) i = callAt? steps i := by
  rw [callAt?, callAt?, List.getElem?_take_of_lt h]

theorem calls_take (h : i ≤ n) : calls (steps.take n) i = calls steps i := by
  refine List.filter_congr fun c hc => ?_
  rw [callAt?_take (Nat.lt_of_lt_of_le (List.mem_range.mp hc) h)]

theorem opened_take (h : i ≤ n) : opened (steps.take n) i = opened steps i := by
  induction i with
  | zero => rfl
  | succ i ih =>
    have hdepths : ∀ c ∈ opened steps i,
        decide (depthAt (steps.take n) c < depthAt (steps.take n) i) =
          decide (depthAt steps c < depthAt steps i) := fun c hc => by
      have hlt := (mem_opened_iff.mp hc).2.1
      rw [depthAt_take (by omega), depthAt_take h]
    rw [opened, opened, callAt?_take h, ih (by omega), List.filter_congr hdepths]

theorem enclosing_take (h : i < n) : enclosing (steps.take n) i = enclosing steps i := by
  rw [enclosing, enclosing, opened_take (Nat.le_of_lt h)]
  refine List.filter_congr fun c hc => ?_
  have hlt := (mem_opened_iff.mp hc).2.1
  rw [depthAt_take (by omega), depthAt_take h]

theorem owner_take (h : i < n) : owner (steps.take n) i = owner steps i := by
  rw [owner, owner, enclosing_take h]

theorem openers_take (h : i ≤ n) : openers (steps.take n) i = openers steps i := by
  rw [openers, openers, calls_take h]

theorem idOf_take (ho : o ∈ openers steps n) : idOf (steps.take n) o = idOf steps o := by
  cases o with
  | none => rfl
  | some c => rw [idOf, idOf, calls_take (Nat.le_of_lt (some_mem_openers_iff.mp ho).1)]

theorem leaves_take_iff (hj : j < n) : Leaves (steps.take n) c j ↔ Leaves steps c j := by
  have hdepths : ∀ k ≤ j, depthAt (steps.take n) k = depthAt steps k := fun k hk =>
    depthAt_take (by omega)
  constructor <;> rintro ⟨hlt, hout, hdeep⟩
  · refine ⟨hlt, ?_, fun k hk hck => ?_⟩
    · rwa [hdepths j (Nat.le_refl j), hdepths c (Nat.le_of_lt hlt)] at hout
    · have := hdeep k hk hck
      rwa [hdepths c (by omega), hdepths k (by omega)] at this
  · refine ⟨hlt, ?_, fun k hk hck => ?_⟩
    · rwa [hdepths j (Nat.le_refl j), hdepths c (Nat.le_of_lt hlt)]
    · have := hdeep k hk hck
      rwa [hdepths c (by omega), hdepths k (by omega)]

/-- The calls of the beginning are the calls of the trace that come early enough. -/
theorem filter_calls_lt (h : n ≤ i) : (calls steps i).filter (fun c => c < n) = calls steps n := by
  refine List.Pairwise.eq_of_mem_iff ((calls_pairwise steps i).filter _) (calls_pairwise steps n)
    fun {c} => ?_
  rw [List.mem_filter, mem_calls_iff, mem_calls_iff, decide_eq_true_eq]
  exact ⟨fun ⟨⟨_, hc⟩, hlt⟩ => ⟨hlt, hc⟩, fun ⟨hlt, hc⟩ => ⟨⟨by omega, hc⟩, hlt⟩⟩

/-! ### Histories of the beginning -/

theorem operandsAt_take (h : c < n) : operandsAt (steps.take n) c = operandsAt steps c := by
  rw [operandsAt, operandsAt, List.getElem?_take_of_lt h]

theorem scopeOf_take (ho : o ∈ openers steps n) :
    scopeOf (steps.take n) tx o = scopeOf steps tx o := by
  cases o with
  | none => rfl
  | some c =>
    have hlt := (some_mem_openers_iff.mp ho).1
    rw [scopeOf, scopeOf, idOf_take ho, enclosing_take hlt, depthAt_take hlt, operandsAt_take hlt]

theorem birth_some_take (ho : some c ∈ openers steps n) :
    birth (steps.take n) tx (some c) = birth steps tx (some c) := by
  have hlt := (some_mem_openers_iff.mp ho).1
  have howner : owner steps c ∈ openers steps n := owner_mem_openers (Nat.le_of_lt hlt)
  rw [birth, birth, List.getElem?_take_of_lt hlt, callAt?_take hlt, owner_take hlt,
    scopeOf_take howner, idOf_take ho, operandsAt_take hlt]

/-- Up to the last step, which the transaction is told beforehand, frames are born alike. -/
theorem opening_birth_take (ho : o ∈ openers steps n) :
    (birth (steps.take n) tx o).opening = (birth steps tx o).opening := by
  cases o with
  | none => rfl
  | some c => rw [birth_some_take ho]

theorem isLeft_take (h : i < n) (o : Option Nat) :
    isLeft (steps.take n) i o = isLeft steps i o := by
  cases o with
  | none => rfl
  | some c =>
    rw [isLeft, isLeft, opened_take (Nat.le_of_lt h), depthAt_take h]
    refine decide_eq_decide.mpr (and_congr_right fun hc => ?_)
    have hlt := (mem_opened_iff.mp hc).2.1
    rw [depthAt_take (by omega)]

/-- **The history of a call depends on the steps so far only.** -/
theorem history_take (ho : some c ∈ openers steps n) (h : i ≤ n) :
    history (steps.take n) tx i (some c) = history steps tx i (some c) := by
  induction i with
  | zero => exact birth_some_take ho
  | succ i ih =>
    rw [history, history, List.getElem?_take_of_lt h, ih (by omega)]
    cases hs : steps[i]? with
    | none => rfl
    | some s =>
      have hclosing : ∀ f, closing (steps.take n) s i (some c) f = closing steps s i (some c) f :=
        fun f => by rw [closing, closing, isLeft_take h]
      have hworking : ∀ f,
          working (steps.take n) s i (some c) f = working steps s i (some c) f := by
        intro f
        rw [working, working, owner_take h]
        cases hop : CallOp.ofName? s.op with
        | none => rfl
        | some op =>
          have hcall : some i ∈ openers steps n :=
            some_mem_openers_iff.mpr ⟨h, by rw [callAt?_of_getElem? hs, hop]; rfl⟩
          rw [idOf_take hcall]
      simp only [hclosing, hworking]

/-- Nothing happens to a frame after the step that leaves its scope. -/
theorem history_eq_of_leaves (hc : (callAt? steps c).isSome) (hj : Leaves steps c j) (hji : j < i) :
    history steps tx i (some c) = history steps tx (j + 1) (some c) := by
  induction i, hji using Nat.le_induction with
  | base => rfl
  | succ i hji ih =>
    rw [history]
    split
    · rw [working, if_neg (hj.owner_ne hc (Nat.le_of_lt hji)), closing,
        if_neg (hj.not_isLeft hc (Nat.ne_of_gt hji)), ih]
    · exact ih

/-! ### Records of the beginning -/

section Records

theorem opening_record_take (ho : o ∈ openers steps n) :
    (record (steps.take n) tx o).opening = (record steps tx o).opening := by
  rw [opening_record, opening_record, opening_birth_take ho]

theorem startStep_record_lt_iff (hpos : 1 ≤ n) (ho : o ∈ openers steps steps.length) :
    (record steps tx o).startStep < (n : Int) ↔ o ∈ openers steps n := by
  cases o with
  | none =>
    rw [startStep_record_none]
    exact ⟨fun _ => none_mem_openers steps n, fun _ => by omega⟩
  | some c =>
    have hc := (some_mem_openers_iff.mp ho).2
    rw [startStep_record_some hc, some_mem_openers_iff, Int.ofNat_lt]
    exact ⟨fun h => ⟨h, hc⟩, fun h => h.1⟩

variable (hn : n ≤ steps.length)

include hn

/-- A frame ends where it ends in the whole trace, or with the beginning. -/
theorem endStep_record_take (hpos : 1 ≤ n) (ho : o ∈ openers steps n) :
    (record (steps.take n) tx o).endStep =
      min (record steps tx o).endStep ((n : Int) - 1) := by
  have hlength : (steps.take n).length = n := List.length_take_of_le hn
  cases o with
  | none =>
    rw [endStep_record_none, endStep_record_none, hlength]
    omega
  | some c =>
    obtain ⟨hlt, hc⟩ := some_mem_openers_iff.mp ho
    have hcpart : (callAt? (steps.take n) c).isSome := by rwa [callAt?_take hlt]
    rcases mem_opened_or_leaves hcpart (hlength.symm ▸ hlt) with hopen | ⟨j, hj, hleaves⟩
    · -- the beginning does not leave the frame, so the frame encloses its last step, if any
      have hlast : (record (steps.take n) tx (some c)).endStep =
          ((steps.take n).length : Int) - 1 := endStep_record_of_opened hopen
      have hbounds := endStep_record_bounds tx hc
      rw [hlength, opened_take (Nat.le_refl n)] at hopen
      rw [hlast, hlength]
      rcases Nat.lt_or_ge c (n - 1) with hbefore | hbehind
      · have henc : Encloses steps c (n - 1) :=
          ⟨hc, hbefore, fun k hk => (mem_opened_iff.mp hopen).2.2 k (by omega)⟩
        have := ((encloses_iff_le_endStep tx hc (by omega)).mp henc).2
        omega
      · omega
    · have hjn : j < n := hlength ▸ hj
      have hwhole : (record steps tx (some c)).endStep = (j : Int) - 1 :=
        endStep_record_of_leaves hc ((leaves_take_iff hjn).mp hleaves) (by omega)
      rw [endStep_record_of_leaves hcpart hleaves hj, hwhole]
      omega

/-- A frame that the beginning leaves is complete. -/
theorem record_take_of_leaves (ho : some c ∈ openers steps n) (hj : Leaves steps c j)
    (hjn : j < n) : record (steps.take n) tx (some c) = record steps tx (some c) := by
  have hlength : (steps.take n).length = n := List.length_take_of_le hn
  obtain ⟨hlt, hc⟩ := some_mem_openers_iff.mp ho
  have hcpart : (callAt? (steps.take n) c).isSome := by rwa [callAt?_take hlt]
  have hpart : Leaves (steps.take n) c j := (leaves_take_iff hjn).mpr hj
  have hopen : ¬ isOpen steps steps.length (some c) = true := fun h =>
    hj.not_mem_opened (by omega) (of_decide_eq_true h)
  have hopenpart : ¬ isOpen (steps.take n) (steps.take n).length (some c) = true := fun h =>
    hpart.not_mem_opened (hlength.symm ▸ hjn) (of_decide_eq_true h)
  rw [record, if_neg hopenpart, record, if_neg hopen,
    history_eq_of_leaves hcpart hpart (hlength.symm ▸ hjn), history_take ho (by omega),
    history_eq_of_leaves hc hj (by omega : j < steps.length)]

/-- A frame that ends before the last step of the beginning is complete. -/
theorem record_take_of_endStep_le (ho : o ∈ openers steps n)
    (hend : (record steps tx o).endStep ≤ (n : Int) - 2) :
    record (steps.take n) tx o = record steps tx o := by
  cases o with
  | none =>
    rw [endStep_record_none] at hend
    omega
  | some c =>
    obtain ⟨hlt, hc⟩ := some_mem_openers_iff.mp ho
    rcases mem_opened_or_leaves hc (by omega : c < steps.length) with hopen | ⟨j, hj, hleaves⟩
    · rw [endStep_record_of_opened hopen] at hend
      omega
    · rw [endStep_record_of_leaves hc hleaves hj] at hend
      exact record_take_of_leaves hn ho hleaves (by omega)

/-- The frames that start in the beginning are those of the beginning. -/
theorem frames_startStep_lt (hpos : 1 ≤ n) :
    (reconstruction steps tx).frames.filter (fun f => f.startStep < (n : Int)) =
      (openers steps n).map (record steps tx) := by
  have hfilter : (openers steps steps.length).filter
      (fun o => decide ((record steps tx o).startStep < n)) = openers steps n := by
    have hmem : ∀ o ∈ openers steps steps.length,
        decide ((record steps tx o).startStep < n) = (o.all fun c => decide (c < n)) := by
      intro o ho
      rw [Bool.eq_iff_iff, decide_eq_true_eq, startStep_record_lt_iff hpos ho]
      cases o with
      | none => simp [none_mem_openers]
      | some c => simp [some_mem_openers_iff, (some_mem_openers_iff.mp ho).2]
    rw [List.filter_congr hmem, openers, List.filter_cons_of_pos rfl, List.filter_map, openers,
      ← filter_calls_lt hn]
    rfl
  rw [reconstruction, List.filter_map]
  exact congrArg (List.map (record steps tx)) hfilter

/-- The children that a frame has in the beginning are those that start in it. -/
theorem children_record_take (o : Option Nat) :
    (record (steps.take n) tx o).children =
      (record steps tx o).children.filter fun k =>
        (reconstruction steps tx).frames.any fun g => g.id = k ∧ g.startStep < n := by
  have hlength : (steps.take n).length = n := List.length_take_of_le hn
  -- an owned call is in the beginning exactly if the frame with its id starts there
  have hstarts : ∀ i ∈ (calls steps steps.length).filter fun i => owner steps i = o,
      ((reconstruction steps tx).frames.any fun g =>
        g.id = (idOf steps (some i) : Int) ∧ g.startStep < n) = decide (i < n) := by
    intro i hi
    have hcall := (mem_calls_iff.mp (List.mem_filter.mp hi).1).2
    rw [Bool.eq_iff_iff, List.any_eq_true, decide_eq_true_eq]
    constructor
    · rintro ⟨g, hg, hgi⟩
      obtain ⟨hid, hstart⟩ := of_decide_eq_true hgi
      obtain ⟨o', ho', rfl⟩ := mem_frames_iff.mp hg
      rw [id_record ho', Int.ofNat_inj, idOf_inj ho' (some_mem_openers hcall)] at hid
      rw [hid, startStep_record_some hcall] at hstart
      omega
    · intro hlt
      refine ⟨record steps tx (some i), record_mem_frames (some_mem_openers hcall), ?_⟩
      refine decide_eq_true ⟨id_record_some hcall, ?_⟩
      rw [startStep_record_some hcall]
      omega
  have howned : ∀ i ∈ calls steps n,
      decide (owner (steps.take n) i = o) = decide (owner steps i = o) := fun i hi => by
    rw [owner_take (mem_calls_iff.mp hi).1]
  rw [children_record, children_record, hlength, calls_take (Nat.le_refl n),
    List.filter_congr howned, List.filter_map]
  have hfilter : ((calls steps steps.length).filter fun i => owner steps i = o).filter
      (fun i => decide (i < n)) = (calls steps n).filter fun i => owner steps i = o := by
    rw [List.filter_comm, filter_calls_lt hn]
  rw [← hfilter, List.filter_congr (p := _ ∘ _) hstarts]
  refine List.map_congr_left fun i hi => ?_
  have hi := List.mem_filter.mp hi
  have hcall := (mem_calls_iff.mp (List.mem_filter.mp hi.1).1).2
  rw [idOf_take (some_mem_openers_iff.mpr ⟨of_decide_eq_true hi.2, hcall⟩)]

theorem truncated_record (hpos : 1 ≤ n) (ho : o ∈ openers steps n) :
    Frame.Truncated (reconstruction steps tx) n (record steps tx o)
      (record (steps.take n) tx o) where
  opening := opening_record_take ho
  endStep := endStep_record_take hn hpos ho
  children := children_record_take hn o
  complete := record_take_of_endStep_le hn ho

theorem truncated_reconstruction (hpos : 1 ≤ n) :
    CallFrames.Truncated n (reconstruction steps tx) (reconstruction (steps.take n) tx) := by
  have hlength : (steps.take n).length = n := List.length_take_of_le hn
  have hpart : (reconstruction (steps.take n) tx).frames =
      (openers steps n).map (record (steps.take n) tx) := by
    rw [reconstruction, hlength, openers_take (Nat.le_refl n)]
  refine ⟨?_, ?_, ?_, ?_, fun f hf hend => ?_⟩
  · rw [reconstruction, List.size_toArray, List.length_map, List.length_range, hlength]
  · have howners : ∀ i ∈ List.range n, (idOf (steps.take n) (owner (steps.take n) i) : Int) =
        idOf steps (owner steps i) := fun i hi => by
      have hlt := List.mem_range.mp hi
      rw [owner_take hlt, idOf_take (owner_mem_openers (Nat.le_of_lt hlt))]
    rw [reconstruction, reconstruction, hlength, ← List.map_take, List.take_range,
      Nat.min_eq_left hn]
    exact List.map_congr_left howners
  · exact ⟨_, _, rfl, rfl, id_record_none steps tx, startStep_record_none,
      truncated_record hn hpos (none_mem_openers steps n)⟩
  · rw [frames_startStep_lt hn hpos, hpart, List.forall₂_map_left_iff, List.forall₂_map_right_iff,
      List.forall₂_same]
    exact fun o ho => truncated_record hn hpos ho
  · obtain ⟨o, ho, rfl⟩ := mem_frames_iff.mp hf
    -- a frame does not end before it starts
    have hstart : (record steps tx o).startStep ≤ (record steps tx o).endStep := by
      have hne : steps ≠ [] := List.length_pos_iff.mp (by omega)
      exact ((integrity_reconstruction hne).range _ hf).2.1
    have hstarts : (record steps tx o).startStep < (n : Int) := by omega
    have ho' := (startStep_record_lt_iff hpos ho).mp hstarts
    rw [hpart]
    exact List.mem_map.mpr ⟨o, ho', record_take_of_endStep_le hn ho' hend⟩

end Records

/-- **Reconstruction does not look ahead.** If it returns for a trace, it returns for every
beginning of the trace, and what it returns is what the beginning leaves of the frames of the
whole trace. -/
theorem truncated_of_build (steps : List Step) (tx : Transaction) (whole : CallFrames) (n : Nat)
    (hpos : 1 ≤ n) (hn : n ≤ steps.length) (h : CallFrames.build steps tx = .ok whole) :
    ∃ part, CallFrames.build (steps.take n) tx = .ok part ∧
      CallFrames.Truncated n whole part := by
  have hne : steps ≠ [] := List.length_pos_iff.mp (by omega)
  have hnepart : steps.take n ≠ [] := by
    rw [← List.length_pos_iff, List.length_take_of_le hn]
    exact hpos
  obtain ⟨part, hpart⟩ : ∃ part, CallFrames.build (steps.take n) tx = .ok part :=
    exists_build fun s hs => not_refused_of_build h s (List.mem_of_mem_take hs)
  refine ⟨part, hpart, ?_⟩
  rw [build_eq_reconstruction h hne, build_eq_reconstruction hpart hnepart]
  exact truncated_reconstruction hn hpos

/-- The sixth step is the last one in the frame that the fifth one opened, and the last frame of the
whole trace is opened later. -/
theorem truncated_of_build_jumpingTrace :
    1 ≤ 6 ∧ 6 ≤ jumpingTrace.length ∧ ∃ whole, CallFrames.build jumpingTrace {} = .ok whole ∧
      ∃ part, CallFrames.build (jumpingTrace.take 6) {} = .ok part ∧
        CallFrames.Truncated 6 whole part ∧
        whole.frames.map (fun f => (f.id, f.startStep, f.endStep, f.children)) =
          [(0, 0, 7, [1, 2, 5]), (1, 0, 0, []), (2, 1, 5, [3, 4]), (3, 2, 3, []), (4, 4, 5, []),
            (5, 7, 7, [])] ∧
        part.frames.map (fun f => (f.id, f.startStep, f.endStep, f.children)) =
          [(0, 0, 5, [1, 2]), (1, 0, 0, []), (2, 1, 5, [3, 4]), (3, 2, 3, []), (4, 4, 5, [])] ∧
        part.stepToFrame = #[0, 0, 2, 3, 2, 4] := by
  obtain ⟨part, hpart, htruncated⟩ :=
    truncated_of_build jumpingTrace {} _ 6 (by decide) (by decide) rfl
  refine ⟨by decide, by decide, _, rfl, part, hpart, htruncated, by decide +kernel, ?_⟩
  cases hpart
  exact ⟨by decide +kernel, by decide +kernel⟩

end Nesting

end TraceAudit
