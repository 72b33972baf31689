import Mathlib.Data.Int.ConditionallyCompleteOrder
import Mathlib.Order.ConditionallyCompleteLattice.Basic
import TraceAudit.Proofs.Frame.Meaning
import TraceAudit.Proofs.Frame.Refusal

/-!
# Depths matter by their order

Tracers number depths from zero, from one or in steps of their own. Reconstruction does not see the
difference: it compares the depth of a step with the depths of open calls and with nothing else. A
numbering `g` that keeps the order of depths commutes with every part of the pass (`leave_mapDepth`,
`advance_mapDepth`, `run_mapDepth`), so that the frames of a renumbered trace are those of the trace
with the entry depths of calls renumbered (`build_mapDepth`).

The transaction has no call, and its entry depth stays what it is. That no step is ever compared
with it shows in `mapScopes`, which leaves the outermost of the open scopes alone: the pass only
closes a scope that has another one around it.
-/

namespace TraceAudit

variable {g : Int → Int}

/-- The step with its depth renumbered. -/
def Step.mapDepth (g : Int → Int) (s : Step) : Step :=
  { s with depth := g s.depth }

/-! ### Frames -/

/-- The frame with the depth of its call renumbered. The frame of the transaction has no call. -/
def Frame.mapEntryDepth (g : Int → Int) (f : Frame) : Frame :=
  { f with entryDepth := if f.isRoot then f.entryDepth else g f.entryDepth }

/-- The frames with the depths of their calls renumbered. -/
def CallFrames.mapEntryDepth (g : Int → Int) (t : CallFrames) : CallFrames :=
  { t with frames := t.frames.map (Frame.mapEntryDepth g) }

namespace Frame

theorem status_mapEntryDepth (f : Frame) : (f.mapEntryDepth g).status = f.status :=
  rfl

/-! No event of a frame looks at the depth of its call. -/

theorem commute_spend (gas : Int) : Function.Commute (spend gas) (mapEntryDepth g) := by
  intro f
  rw [spend, spend]
  split <;> rfl

theorem commute_adopt (child : Int) : Function.Commute (adopt child) (mapEntryDepth g) := by
  intro f
  rfl

theorem commute_fail (op : String) : Function.Commute (fail op) (mapEntryDepth g) := by
  intro f
  rfl

theorem commute_endAt (last : Int) : Function.Commute (endAt last) (mapEntryDepth g) := by
  intro f
  rfl

theorem commute_succeed : Function.Commute succeed (mapEntryDepth g) := by
  intro f
  rw [succeed, succeed, status_mapEntryDepth]
  split <;> rfl

theorem commute_halt (s : Step) : Function.Commute (halt s) (mapEntryDepth g) := by
  intro f
  rw [halt, halt]
  split
  · exact commute_fail s.op f
  · split
    · exact commute_succeed f
    · rfl

theorem commute_closeBefore (outside : Step) (last : Int) :
    Function.Commute (closeBefore outside last) (mapEntryDepth g) := by
  intro f
  rw [closeBefore, closeBefore, status_mapEntryDepth]
  split
  · exact commute_endAt last (f.fail outside.op)
  · rw [commute_succeed.eq f]
    exact commute_endAt last f.succeed

theorem commute_closeAtEnd (last : Int) : Function.Commute (closeAtEnd last) (mapEntryDepth g) :=
  (commute_endAt last).comp_left commute_succeed

end Frame

/-! ### Open scopes -/

/-- A scope inside of others with the depth of its call renumbered. The outermost scope is that of
the transaction. -/
def Scope.mapEntryDepth (g : Int → Int) (outer : List Scope) (scope : Scope) : Scope :=
  { scope with entryDepth := if outer.isEmpty then scope.entryDepth else g scope.entryDepth }

namespace FrameWalk

/-- Open scopes, from the innermost outwards, with the depths of their calls renumbered. -/
def mapScopes (g : Int → Int) : List Scope → List Scope
  | [] => []
  | scope :: outer => scope.mapEntryDepth g outer :: mapScopes g outer

/-- The state of the pass with the depths of calls renumbered. -/
def mapDepth (g : Int → Int) (w : FrameWalk) : FrameWalk where
  frames := w.frames.map (Frame.mapEntryDepth g)
  current := w.current.mapEntryDepth g w.outer
  outer := mapScopes g w.outer
  owners := w.owners

theorem update_map_mapEntryDepth {change : Frame → Frame}
    (h : Function.Commute change (Frame.mapEntryDepth g)) (frames : List Frame) (id : Nat) :
    update (frames.map (Frame.mapEntryDepth g)) id change =
      (update frames id change).map (Frame.mapEntryDepth g) := by
  refine List.ext_getElem? fun k => ?_
  rw [update, update, List.getElem?_modify, List.getElem?_map, List.getElem?_map,
    List.getElem?_modify]
  cases frames[k]? with
  | none => rfl
  | some f =>
    by_cases hk : id = k
    · simp [hk, h.eq f]
    · simp [hk]

theorem start_mapDepth (tx : Transaction) (last : Int) :
    (start tx last).mapDepth g = start tx last :=
  rfl

end FrameWalk

/-! ### The pass -/

namespace Nesting

open FrameWalk

variable {s : Step} {w : FrameWalk} {i : Nat}

/-- **The same scopes are left.** The induction is on the scopes around the current one; where there
is none, no depths are compared. -/
theorem leave_mapDepth (hg : StrictMono g) {outer : List Scope} :
    ∀ {frames : List Frame} {current : Scope} {frames' : List Frame} {current' : Scope}
      {outer' : List Scope}, leave s i frames current outer = (frames', current', outer') →
        leave (s.mapDepth g) i (frames.map (Frame.mapEntryDepth g))
          (current.mapEntryDepth g outer) (mapScopes g outer) =
            (frames'.map (Frame.mapEntryDepth g), current'.mapEntryDepth g outer',
              mapScopes g outer') := by
  induction outer with
  | nil =>
    intro frames current frames' current' outer' h
    cases h
    rfl
  | cons up outer ih =>
    intro frames current frames' current' outer' h
    have hdepth : (s.mapDepth g).depth ≤ (current.mapEntryDepth g (up :: outer)).entryDepth ↔
        s.depth ≤ current.entryDepth := hg.le_iff_le
    rw [leave] at h
    rw [mapScopes, leave]
    by_cases hout : s.depth ≤ current.entryDepth
    · rw [if_pos hout] at h
      rw [if_pos (hdepth.mpr hout)]
      have hclose := update_map_mapEntryDepth
        (Frame.commute_closeBefore (g := g) s ((i : Int) - 1)) frames current.id
      exact hclose ▸ ih h
    · rw [if_neg hout] at h
      rw [if_neg (mt hdepth.mp hout)]
      cases h
      rfl

theorem arrive_mapDepth (hg : StrictMono g) :
    (w.mapDepth g).arrive (s.mapDepth g) i = (w.arrive s i).mapDepth g := by
  obtain ⟨frames, current, outer, hleave⟩ : ∃ frames current outer,
      leave s i w.frames w.current w.outer = (frames, current, outer) := ⟨_, _, _, rfl⟩
  have hspend := update_map_mapEntryDepth (Frame.commute_spend (g := g) s.gasCost) frames current.id
  rw [arrive_eq hleave, arrive_eq (leave_mapDepth hg hleave)]
  exact congrArg (fun frames => (⟨frames, current.mapEntryDepth g outer, mapScopes g outer,
    current.id :: w.owners⟩ : FrameWalk)) hspend

theorem enter_mapDepth (op : CallOp) (o : CallOperands) :
    (w.mapDepth g).enter (s.mapDepth g) i op o = (w.enter s i op o).mapDepth g := by
  have hlength : (w.mapDepth g).frames.length = w.frames.length := List.length_map _
  have hadopt := update_map_mapEntryDepth (Frame.commute_adopt (g := g) w.frames.length) w.frames
    w.current.id
  have hframes : (w.enter s i op o).frames.map (Frame.mapEntryDepth g) =
      update (w.frames.map (Frame.mapEntryDepth g)) w.current.id (Frame.adopt w.frames.length) ++
        [child (s.mapDepth g) i op (w.current.mapEntryDepth g w.outer) w.frames.length o] := by
    rw [enter, List.map_append, hadopt]
    rfl
  rw [enter, hlength]
  exact congrArg (fun frames => (⟨frames,
    ⟨w.frames.length, w.current.depth + 1, g s.depth, o.target⟩, mapScopes g (w.current :: w.outer),
    w.owners⟩ : FrameWalk)) hframes.symm

/-- **The step lemma**: a renumbered step does to a renumbered state what the step does to the
state, and is refused where the step is. -/
theorem advance_mapDepth (hg : StrictMono g) :
    (w.mapDepth g).advance (s.mapDepth g) i = (w.advance s i).map (FrameWalk.mapDepth g) := by
  cases hop : CallOp.ofName? s.op with
  | none =>
    have hhalt := update_map_mapEntryDepth (Frame.commute_halt (g := g) s) (w.arrive s i).frames
      (w.arrive s i).current.id
    rw [advance_of_other hop, advance_of_other (s := s.mapDepth g) hop, arrive_mapDepth hg]
    exact congrArg (fun frames => Except.ok { (w.arrive s i).mapDepth g with frames }) hhalt
  | some op =>
    have hoperands : (s.mapDepth g).callOperands op = s.callOperands op := rfl
    rw [advance_of_call hop, advance_of_call (s := s.mapDepth g) hop, arrive_mapDepth hg, hoperands]
    simp only [enter_mapDepth]
    cases s.callOperands op <;> rfl

/-- **The run lemma**: a whole run of the pass commutes with the numbering. -/
theorem run_mapDepth (hg : StrictMono g) (steps : List Step) :
    (w.mapDepth g).run i (steps.map (Step.mapDepth g)) =
      (w.run i steps).map (FrameWalk.mapDepth g) := by
  induction steps generalizing w i with
  | nil => rfl
  | cons s steps ih =>
    rw [List.map_cons, run_cons, run_cons, advance_mapDepth hg]
    cases w.advance s i with
    | error fault => rfl
    | ok w' => exact ih

theorem foldl_close_mapDepth (last : Int) (scopes : List Scope) (frames : List Frame) :
    (mapScopes g scopes).foldl (fun fs scope => update fs scope.id (Frame.closeAtEnd last))
        (frames.map (Frame.mapEntryDepth g)) =
      (scopes.foldl (fun fs scope => update fs scope.id (Frame.closeAtEnd last)) frames).map
        (Frame.mapEntryDepth g) := by
  induction scopes generalizing frames with
  | nil => rfl
  | cons scope outer ih =>
    have hclose := update_map_mapEntryDepth (Frame.commute_closeAtEnd (g := g) last) frames scope.id
    rw [List.foldl_cons, ← ih, ← hclose]
    rfl

theorem finish_mapDepth (last : Int) :
    (w.mapDepth g).finish last = (w.finish last).mapEntryDepth g := by
  have hclose := foldl_close_mapDepth (g := g) last (w.current :: w.outer) w.frames
  rw [finish, finish, CallFrames.mapEntryDepth, ← hclose]
  rfl

/-- **Only the order of depths matters.** If the depths of all steps are renumbered in a way that
keeps their order, reconstruction gives the same owners and the same frames, except that the frame
of each call has the new depth of the call. If it refuses the one trace, it refuses the other. -/
theorem build_mapDepth (g : Int → Int) (hg : StrictMono g) (steps : List Step) (tx : Transaction) :
    CallFrames.build (steps.map (Step.mapDepth g)) tx =
      (CallFrames.build steps tx).map (CallFrames.mapEntryDepth g) := by
  rcases eq_or_ne steps [] with rfl | hne
  · rfl
  · have hmap : steps.map (Step.mapDepth g) ≠ [] := by simpa using hne
    have hrun := run_mapDepth (w := start tx ((steps.length : Int) - 1)) (i := 0) hg steps
    rw [start_mapDepth] at hrun
    rw [build_of_ne_nil hne, build_of_ne_nil hmap, List.length_map, hrun]
    cases (start tx ((steps.length : Int) - 1)).run 0 steps with
    | error fault => rfl
    | ok w => exact congrArg Except.ok (finish_mapDepth _)

/-- A trace with depths that jump, in steps of two and from below zero. -/
theorem build_mapDepth_jumpingTrace :
    StrictMono (fun d : Int => 2 * d - 7) ∧
    ∃ t, CallFrames.build jumpingTrace {} = .ok t ∧
      t.frames.map Frame.entryDepth = [0, 1, 1, 3, 2, 0] ∧
      CallFrames.build (jumpingTrace.map (Step.mapDepth fun d => 2 * d - 7)) {} =
        .ok (t.mapEntryDepth fun d => 2 * d - 7) ∧
      (t.mapEntryDepth fun d => 2 * d - 7).frames.map Frame.entryDepth =
        [0, -5, -5, -1, -3, -7] := by
  have hg : StrictMono (fun d : Int => 2 * d - 7) := fun a b hab => by
    dsimp only
    omega
  exact ⟨hg, _, rfl, by decide, build_mapDepth _ hg jumpingTrace {}, by decide⟩

end Nesting

end TraceAudit
