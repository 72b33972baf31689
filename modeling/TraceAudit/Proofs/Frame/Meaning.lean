import TraceAudit.Proofs.Frame.Reconstruction

/-!
# What reconstruction means

The pass compares the depth of a step with that of the innermost open call only. Its result has a
meaning that mentions neither a stack nor an order of events, for depths that jump in any way:
`ShowsNesting` says it with the calls that enclose a position and the first step that leaves a call,
and `showsNesting_of_build` says that every reconstruction that returns has this meaning.
-/

namespace TraceAudit

open Nesting

/-- The frame `root` of the transaction, the frames `opened` of the calls and the owners of the
steps are those that the depths of the trace show. -/
structure ShowsNesting (steps : List Step) (root : Frame) (opened : List Frame)
    (owners : Array Int) : Prop where
  /-- There is one frame for each call, in order, and it starts with its call. -/
  starts : opened.map Frame.startStep = (calls steps steps.length).map Int.ofNat
  /-- A frame knows the depth and the instruction of its call. -/
  call : ∀ f ∈ opened, ∀ p : Nat, f.startStep = p → ∃ s op, steps[p]? = some s ∧
    CallOp.ofName? s.op = some op ∧ f.entryDepth = s.depth ∧ f.kind = .opened op
  /-- Frames are told apart by their ids. -/
  ids_nodup : ((root :: opened).map Frame.id).Nodup
  owners_size : owners.size = steps.length
  /-- A step belongs to the frame of the latest call that encloses it. -/
  owner_of_encloses : ∀ i < steps.length, ∀ f ∈ opened, ∀ p : Nat, f.startStep = p →
    Encloses steps p i → (∀ q, Encloses steps q i → q ≤ p) → owners[i]? = some f.id
  /-- A step that no call encloses belongs to the transaction. -/
  owner_of_not_encloses : ∀ i < steps.length, (∀ p, ¬ Encloses steps p i) →
    owners[i]? = some root.id
  /-- The parent of a frame is the frame that its call belongs to. -/
  parent : ∀ f ∈ opened, ∀ p : Nat, f.startStep = p → f.parent = owners[p]?
  /-- A frame ends before the first later step that is not deeper than its call. -/
  endStep_of_leaves : ∀ f ∈ opened, ∀ p : Nat, f.startStep = p → ∀ j < steps.length,
    Leaves steps p j → f.endStep = (j : Int) - 1
  /-- If every later step is deeper, the frame ends with the trace. -/
  endStep_of_deeper : ∀ f ∈ opened, ∀ p : Nat, f.startStep = p →
    (∀ j < steps.length, p < j → depthAt steps p < depthAt steps j) →
    f.endStep = (steps.length : Int) - 1
  root_startStep : root.startStep = 0
  root_endStep : root.endStep = (steps.length : Int) - 1

namespace Nesting

variable {steps : List Step} {tx : Transaction} {p : Nat} {f : Frame}

theorem showsNesting_reconstruction (hne : steps ≠ []) :
    ShowsNesting steps (record steps tx none)
      ((calls steps steps.length).map fun p => record steps tx (some p))
      (reconstruction steps tx).stepToFrame where
  starts := by
    rw [List.map_map]
    exact List.map_congr_left fun p hp => startStep_record_some (mem_calls_iff.mp hp).2
  call f hf p hp := by
    obtain ⟨hcall, rfl⟩ := eq_record_of_startStep hf hp
    obtain ⟨s, op, hs, hop⟩ := exists_of_callAt? hcall
    exact ⟨s, op, hs, hop, entryDepth_record_some hs hop, kind_record_some hs hop⟩
  ids_nodup := by
    rw [← frames_reconstruction, ids_reconstruction, idOf_openers]
    exact (List.nodup_map_iff fun a b h => Int.ofNat_inj.mp h).mpr List.nodup_range
  owners_size := size_stepToFrame steps tx
  owner_of_encloses i hi f hf p hp henc hlast := by
    obtain ⟨hcall, rfl⟩ := eq_record_of_startStep hf hp
    have howner : owner steps i = some p := owner_eq_some_iff.mpr ⟨henc, hlast⟩
    rw [getElem?_stepToFrame hi, howner, id_record_some hcall]
  owner_of_not_encloses i hi hnone := by
    rw [getElem?_stepToFrame hi, owner_eq_none_iff.mpr hnone, id_record_none]
    rfl
  parent f hf p hp := by
    obtain ⟨hcall, rfl⟩ := eq_record_of_startStep hf hp
    rw [parent_record_some hcall, getElem?_stepToFrame (lt_length_of_callAt? hcall)]
  endStep_of_leaves f hf p hp j hj hleaves := by
    obtain ⟨hcall, rfl⟩ := eq_record_of_startStep hf hp
    exact endStep_record_of_leaves hcall hleaves hj
  endStep_of_deeper f hf p hp hdeep := by
    obtain ⟨hcall, rfl⟩ := eq_record_of_startStep hf hp
    exact endStep_record_of_opened
      (mem_opened_iff.mpr ⟨hcall, lt_length_of_callAt? hcall, hdeep⟩)
  root_startStep := startStep_record_none
  root_endStep := endStep_record_none_of_ne_nil hne

/-- **Reconstruction means the nesting of the depths.** Whatever the depths of the steps are, the
frames of a reconstruction that returns are one for the transaction and one for each call, and
owners, parents and last steps are those that enclosing calls and leaving steps define. -/
theorem showsNesting_of_build (steps : List Step) (tx : Transaction) (c : CallFrames)
    (hne : steps ≠ []) (hbuild : CallFrames.build steps tx = .ok c) :
    ∃ root opened, c.frames = root :: opened ∧ ShowsNesting steps root opened c.stepToFrame := by
  rw [build_eq_reconstruction hbuild hne]
  exact ⟨_, _, frames_reconstruction steps tx, showsNesting_reconstruction hne⟩

/-- A trace whose depths jump: a call that enters nothing, a call two levels up, a drop below the
start, and a call as the last step. -/
def jumpingTrace : List Step :=
  [(1, "CALL"), (1, "STATICCALL"), (3, "CREATE"), (4, "ADD"), (2, "CALL"), (5, "REVERT"),
    (-1, "ADD"), (0, "DELEGATECALL")].map fun s => ⟨0, 0, s.2, 0, 3, s.1, [], []⟩

theorem showsNesting_of_build_jumpingTrace :
    ∃ c, CallFrames.build jumpingTrace {} = .ok c ∧
      ∃ root opened, c.frames = root :: opened ∧
        ShowsNesting jumpingTrace root opened c.stepToFrame :=
  ⟨_, rfl, showsNesting_of_build jumpingTrace {} _ nofun rfl⟩

end Nesting

end TraceAudit
