import TraceAudit.Proofs.Frame.Integrity
import TraceAudit.Proofs.Step.Profile

/-!
# Conservation of gas

Two accounts are kept of what a trace costs: each frame sums up the gas of its own steps while it is
on top of the pass, and the opcode profile sums up the cost of each mnemonic. Both split the same
steps into groups, so neither loses a step nor counts one twice.

A frame spends exactly what the steps spend that belong to it (`gasSpent_of_build`), since of the
events of its history only its own steps touch its gas. That these sums add up to the whole trace is
a matter of the integrity of the frames alone: every step belongs to one of the frames, and no two
frames have the same id. A negative cost counts as nothing in frames, but not in the profile; the
two accounts agree where there is none.
-/

namespace TraceAudit

/-- What a step spends: a negative cost counts as nothing. -/
def Step.spending (s : Step) : Int :=
  max s.gasCost 0

/-- The steps of a trace that belong to the frame with an id. -/
def CallFrames.stepsOf (c : CallFrames) (steps : List Step) (id : Int) : List Step :=
  ((steps.zip c.stepToFrame.toList).filter fun x => x.2 = id).map Prod.fst

namespace Frame

section Events

variable (f : Frame) (s : Step) (gas last child : Int)

theorem gasSpent_spend : (f.spend gas).gasSpent = f.gasSpent + max gas 0 := by
  rw [spend]
  split
  · next hgas => rw [max_eq_left (Int.le_of_lt hgas)]
  · next hgas => rw [max_eq_right (Int.not_lt.mp hgas), Int.add_zero]

@[simp] theorem gasSpent_adopt : (f.adopt child).gasSpent = f.gasSpent := rfl

@[simp] theorem gasSpent_succeed : f.succeed.gasSpent = f.gasSpent := by
  rw [succeed]; split <;> rfl

@[simp] theorem gasSpent_halt : (f.halt s).gasSpent = f.gasSpent := by
  rw [halt]
  split
  · rfl
  · split
    · exact gasSpent_succeed f
    · rfl

@[simp] theorem gasSpent_closeBefore : (f.closeBefore s last).gasSpent = f.gasSpent := by
  rw [closeBefore]
  split
  · rfl
  · exact gasSpent_succeed f

@[simp] theorem gasSpent_closeAtEnd : (f.closeAtEnd last).gasSpent = f.gasSpent :=
  gasSpent_succeed f

end Events

end Frame

namespace Nesting

variable {steps : List Step} {tx : Transaction} {s : Step} {f : Frame} {n : Nat} {o : Option Nat}

/-! ### The gas of one frame -/

/-- The steps among the first `n` that a frame owns. -/
def owned (steps : List Step) (n : Nat) (o : Option Nat) : List Step :=
  ((steps.take n).zipIdx.filter fun x => owner steps x.2 = o).map Prod.fst

theorem owned_succ (hs : steps[n]? = some s) (o : Option Nat) :
    owned steps (n + 1) o = owned steps n o ++ if owner steps n = o then [s] else [] := by
  have hlength : (steps.take n).length = n :=
    List.length_take_of_le (Nat.le_of_lt (List.getElem?_eq_some_iff.mp hs).1)
  rw [owned, List.take_add_one, hs, List.zipIdx_append, hlength, List.filter_append,
    List.map_append, ← owned]
  refine congrArg (owned steps n o ++ ·) ?_
  by_cases ho : owner steps n = o <;> simp [ho]

theorem gasSpent_birth (o : Option Nat) : (birth steps tx o).gasSpent = 0 := by
  cases o with
  | none => rfl
  | some c => rw [birth]; split <;> rfl

theorem gasSpent_closing {i : Nat} : (closing steps s i o f).gasSpent = f.gasSpent := by
  rw [closing]
  split
  · exact Frame.gasSpent_closeBefore f s _
  · rfl

theorem gasSpent_working {i : Nat} :
    (working steps s i o f).gasSpent =
      f.gasSpent + if owner steps i = o then s.spending else 0 := by
  rw [working]
  split
  · split
    · rw [Frame.gasSpent_adopt, Frame.gasSpent_spend, Step.spending]
    · rw [Frame.gasSpent_halt, Frame.gasSpent_spend, Step.spending]
  · rw [Int.add_zero]

variable (tx) in
/-- **A frame has spent what its own steps so far spend.** -/
theorem gasSpent_history (hn : n ≤ steps.length) (o : Option Nat) :
    (history steps tx n o).gasSpent = ((owned steps n o).map Step.spending).sum := by
  induction n with
  | zero => exact gasSpent_birth o
  | succ n ih =>
    have hs : steps[n]? = some steps[n] := List.getElem?_eq_getElem hn
    rw [history_succ hs, gasSpent_working, gasSpent_closing, ih (by omega), owned_succ hs,
      List.map_append, List.sum_append]
    by_cases ho : owner steps n = o <;> simp [ho]

variable (steps tx) in
theorem gasSpent_record (o : Option Nat) :
    (record steps tx o).gasSpent = ((owned steps steps.length o).map Step.spending).sum := by
  rw [record, ← gasSpent_history tx (Nat.le_refl _)]
  split
  · exact Frame.gasSpent_closeAtEnd _ _
  · rfl

/-- The steps of a frame are those that it owns. -/
theorem stepsOf_reconstruction (ho : o ∈ openers steps steps.length) :
    (reconstruction steps tx).stepsOf steps (idOf steps o) = owned steps steps.length o := by
  have hzip : steps.zip (reconstruction steps tx).stepToFrame.toList =
      steps.zipIdx.map (Prod.map id fun i => (idOf steps (owner steps i) : Int)) := by
    rw [reconstruction, List.zip_map_right, List.zipIdx_eq_zip_range', List.range_eq_range']
  rw [CallFrames.stepsOf, hzip, List.filter_map, List.map_map, owned, List.take_length]
  refine congrArg (List.map Prod.fst) (List.filter_congr fun x hx => decide_eq_decide.mpr ?_)
  have hlt : x.2 < steps.length := by
    have := List.snd_lt_of_mem_zipIdx hx
    omega
  rw [Prod.map_snd, Int.ofNat_inj, idOf_inj (owner_mem_openers (Nat.le_of_lt hlt)) ho]

theorem gasSpent_of_build {c : CallFrames} (h : CallFrames.build steps tx = .ok c) :
    ∀ f ∈ c.frames, f.gasSpent = ((c.stepsOf steps f.id).map Step.spending).sum := by
  intro f hf
  obtain rfl := build_eq_reconstruction_of_mem h hf
  obtain ⟨o, ho, rfl⟩ := mem_frames_iff.mp hf
  rw [id_record ho, stepsOf_reconstruction ho, gasSpent_record]

end Nesting

/-! ### The gas of a trace -/

variable {steps : List Step} {c : CallFrames}

/-- The steps of the frames are the steps of the trace. -/
theorem Integrity.sum_stepsOf (h : Integrity steps.length c) (value : Step → Int) :
    (c.frames.map fun f => ((c.stepsOf steps f.id).map value).sum).sum = (steps.map value).sum := by
  have hlength : steps.length ≤ c.stepToFrame.toList.length :=
    Nat.le_of_eq (h.owners_size.symm.trans Array.length_toList.symm)
  have howner : ∀ x ∈ steps.zip c.stepToFrame.toList, x.2 ∈ c.frames.map Frame.id := by
    intro x hx
    obtain ⟨i, hi⟩ := List.mem_iff_getElem?.mp hx
    obtain ⟨hstep, hid⟩ := List.getElem?_zip_eq_some.mp hi
    have hlt : i < steps.length := (List.getElem?_eq_some_iff.mp hstep).1
    obtain ⟨f, hf, hfi, -⟩ := h.owner i hlt
    rw [← Array.getElem?_toList, hid, Option.some_inj] at hfi
    exact hfi ▸ List.mem_map_of_mem hf
  have hsum := sum_groups Prod.snd (fun x => value x.1) h.ids_nodup howner
  rw [List.map_map] at hsum
  calc
    (c.frames.map fun f => ((c.stepsOf steps f.id).map value).sum).sum
      = ((steps.zip c.stepToFrame.toList).map fun x => value x.1).sum := by
        rw [← hsum]
        refine congrArg List.sum (List.map_congr_left fun f _ => ?_)
        rw [CallFrames.stepsOf, List.map_map]
        rfl
    _ = (steps.map value).sum := by
        have hmap := List.map_map (f := Prod.fst) (g := value) (l := steps.zip c.stepToFrame.toList)
        rw [List.map_fst_zip hlength] at hmap
        exact congrArg List.sum hmap.symm

/-- **Gas is conserved.** Each frame of a reconstruction that returns has spent what the steps that
belong to it spend, all frames together have spent what the trace spends, and where no cost is
negative this is what a profile adds up to that leaves room for every mnemonic. -/
theorem gas_conserved_of_build (steps : List Step) (tx : Transaction) (c : CallFrames)
    (h : CallFrames.build steps tx = .ok c) :
    (∀ f ∈ c.frames, f.gasSpent = ((c.stepsOf steps f.id).map Step.spending).sum) ∧
      (c.frames.map Frame.gasSpent).sum = (steps.map Step.spending).sum ∧
      ((∀ s ∈ steps, 0 ≤ s.gasCost) → ∀ limit : Int,
        ((steps.map Step.op).toFinset.card : Int) ≤ limit →
          (c.frames.map Frame.gasSpent).sum =
            ((OpcodeProfile.top steps limit).map OpcodeProfile.gasCostSum).sum) := by
  have hframes := Nesting.gasSpent_of_build h
  have htotal : (c.frames.map Frame.gasSpent).sum = (steps.map Step.spending).sum := by
    rw [List.map_congr_left hframes]
    exact (Nesting.integrity_of_build h).sum_stepsOf Step.spending
  refine ⟨hframes, htotal, fun hcosts limit hlimit => ?_⟩
  have hspending : steps.map Step.spending = steps.map Step.gasCost :=
    List.map_congr_left fun s hs => max_eq_left (hcosts s hs)
  rw [htotal, hspending, OpcodeProfile.sum_gasCostSum_top hlimit]

/-- Every step of this trace costs three. -/
theorem gas_conserved_of_build_jumpingTrace :
    ∃ c, CallFrames.build Nesting.jumpingTrace {} = .ok c ∧
      (∀ s ∈ Nesting.jumpingTrace, 0 ≤ s.gasCost) ∧
      ((Nesting.jumpingTrace.map Step.op).toFinset.card : Int) ≤ 6 ∧
      (c.frames.map Frame.gasSpent).sum = 24 ∧
      ((OpcodeProfile.top Nesting.jumpingTrace 6).map OpcodeProfile.gasCostSum).sum = 24 := by
  have hcosts : ∀ s ∈ Nesting.jumpingTrace, 0 ≤ s.gasCost := by decide
  have hops : ((Nesting.jumpingTrace.map Step.op).toFinset.card : Int) ≤ 6 := by decide
  obtain ⟨c, hc⟩ : ∃ c, CallFrames.build Nesting.jumpingTrace {} = .ok c := ⟨_, rfl⟩
  obtain ⟨-, htotal, hprofile⟩ := gas_conserved_of_build Nesting.jumpingTrace {} c hc
  have htotal24 : (c.frames.map Frame.gasSpent).sum = 24 := htotal
  exact ⟨c, hc, hcosts, hops, htotal24, (hprofile hcosts 6 hops).symm.trans htotal24⟩

end TraceAudit
