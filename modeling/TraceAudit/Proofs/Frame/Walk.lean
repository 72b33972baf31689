import TraceAudit.Proofs.Frame.History

/-!
# The pass and the histories

The pass over the steps computes the histories of all frames at once. After `n` steps

* its frames are the histories of the frames opened so far, in the order of their ids;
* its open scopes are those of the calls `opened steps n`, with the transaction outermost;
* its owners are the frames that own the steps so far.

`FrameWalk.Shows` is this invariant, `advance_shows` its step lemma and `run_shows` its run lemma.
The whole result of a reconstruction is then `reconstruction`, a function of positions
(`build_eq_reconstruction`).

The pass changes a frame by its id, and histories are told by what opened a frame; `update_map` goes
from one to the other. That the pass looks at the innermost open scope only is enough since depths
fall along the open scopes (`leave_map`).
-/

namespace TraceAudit.Nesting

open FrameWalk

variable {steps : List Step} {tx : Transaction} {n i : Nat} {s : Step} {o : Option Nat}
  {w w' : FrameWalk}

/-! ### Changing one frame -/

/-- Changing the frame with an id changes the frame that has this id. -/
theorem update_map (ho : o ∈ openers steps n) (r : Option Nat → Frame) (change : Frame → Frame) :
    update ((openers steps n).map r) (idOf steps o) change =
      (openers steps n).map fun o' => if o' = o then change (r o') else r o' := by
  refine List.ext_getElem? fun k => ?_
  rw [update, List.getElem?_modify, List.getElem?_map, List.getElem?_map]
  cases hk : (openers steps n)[k]? with
  | none => rfl
  | some o' =>
    have hid : k = idOf steps o' := eq_idOf_of_getElem? hk
    have hiff : idOf steps o = k ↔ o' = o := by
      rw [hid, idOf_inj ho (List.mem_of_getElem? hk)]
      exact eq_comm
    by_cases h : o' = o
    · simp [hiff.mpr h, h]
    · simp [mt hiff.mp h, h]

/-! ### Chains of scopes -/

/-- Frames from the innermost outwards: those of calls, then the transaction. -/
def chain (ps : List Nat) : List (Option Nat) :=
  ps.map some ++ [none]

theorem chain_cons (p : Nat) (ps : List Nat) : chain (p :: ps) = some p :: chain ps := rfl

theorem mem_chain_opened_iff : o ∈ chain (opened steps n) ↔ isOpen steps n o = true := by
  cases o with
  | none => simp [chain, isOpen]
  | some c => simp [chain, isOpen]

theorem mem_openers_of_mem_chain (h : o ∈ chain (opened steps n)) : o ∈ openers steps n := by
  cases o with
  | none => exact none_mem_openers steps n
  | some c =>
    obtain ⟨hc, hlt, -⟩ := mem_opened_iff.mp (of_decide_eq_true (mem_chain_opened_iff.mp h))
    exact some_mem_openers_iff.mpr ⟨hlt, hc⟩

theorem chain_opened_nodup (steps : List Step) (n : Nat) : (chain (opened steps n)).Nodup := by
  have hopened : (opened steps n).Nodup := (opened_pairwise steps n).imp fun h => Nat.ne_of_gt h.1
  refine List.nodup_append.mpr ⟨?_, List.nodup_singleton none, ?_⟩
  · exact (List.nodup_map_iff (Option.some_injective Nat)).mpr hopened
  · intro a ha b hb
    obtain ⟨c, -, rfl⟩ := List.mem_map.mp ha
    rw [List.mem_singleton.mp hb]
    exact Option.some_ne_none c

/-- The owner of a position is the innermost frame around it. -/
theorem chain_enclosing (steps : List Step) (i : Nat) :
    chain (enclosing steps i) = owner steps i :: (chain (enclosing steps i)).tail := by
  rw [owner]
  cases enclosing steps i <;> rfl

/-- The depth of the owner of a position is the number of calls around the position. -/
theorem depth_scopeOf_owner (steps : List Step) (tx : Transaction) (i : Nat) :
    (scopeOf steps tx (owner steps i)).depth = (enclosing steps i).length := by
  cases ho : owner steps i with
  | none => rw [enclosing_of_owner_none ho]; rfl
  | some c => rw [enclosing_of_owner ho, List.length_cons, Int.natCast_succ, scopeOf]

theorem id_scopeOf (steps : List Step) (tx : Transaction) (o : Option Nat) :
    (scopeOf steps tx o).id = idOf steps o := by
  cases o <;> rfl

/-! ### Leaving scopes -/

/-- Whether a frame is one of the calls `ps` with a depth that a step at depth `d` leaves. -/
def isOutside (steps : List Step) (d : Int) (ps : List Nat) : Option Nat → Bool
  | none => false
  | some c => c ∈ ps ∧ d ≤ depthAt steps c

theorem isLeft_eq_isOutside (steps : List Step) (i : Nat) :
    isLeft steps i = isOutside steps (depthAt steps i) (opened steps i) := by
  funext o
  cases o <;> rfl

theorem isOutside_cons_of_lt {d : Int} {p : Nat} {ps : List Nat} (hp : depthAt steps p < d)
    (hdeep : ∀ q ∈ ps, depthAt steps q < depthAt steps p) (o : Option Nat) :
    isOutside steps d (p :: ps) o = false := by
  cases o with
  | none => rfl
  | some c =>
    refine decide_eq_false ?_
    rintro ⟨hc, hd⟩
    rcases List.mem_cons.mp hc with rfl | hc
    · omega
    · have := hdeep c hc
      omega

theorem isOutside_cons_of_ge {d : Int} {p : Nat} {ps : List Nat} (hp : d ≤ depthAt steps p)
    (o : Option Nat) :
    isOutside steps d (p :: ps) o = (decide (o = some p) || isOutside steps d ps o) := by
  cases o with
  | none => rfl
  | some c =>
    rw [Bool.eq_iff_iff, Bool.or_eq_true, decide_eq_true_eq, isOutside, decide_eq_true_eq,
      isOutside, decide_eq_true_eq, List.mem_cons, Option.some_inj]
    constructor
    · rintro ⟨rfl | hc, hd⟩
      · exact .inl rfl
      · exact .inr ⟨hc, hd⟩
    · rintro (rfl | ⟨hc, hd⟩)
      · exact ⟨.inl rfl, hp⟩
      · exact ⟨.inr hc, hd⟩

/-- **Leaving from the inside outwards leaves every scope that a step lies outside of.** The
induction is on the open scopes; that depths fall along them makes the rest stay open when the
first one does. -/
theorem leave_map (ps : List Nat) (r : Option Nat → Frame) (current : Scope) (outer : List Scope)
    (hmem : ∀ p ∈ ps, some p ∈ openers steps n)
    (hsorted : ps.Pairwise fun a b => b < a ∧ depthAt steps b < depthAt steps a)
    (hscopes : current :: outer = (chain ps).map (scopeOf steps tx)) :
    ∃ current' outer',
      leave s i ((openers steps n).map r) current outer =
        ((openers steps n).map fun o =>
          if isOutside steps s.depth ps o then (r o).closeBefore s ((i : Int) - 1) else r o,
          current', outer') ∧
      current' :: outer' =
        (chain (ps.filter fun p => depthAt steps p < s.depth)).map (scopeOf steps tx) := by
  induction ps generalizing r current outer with
  | nil =>
    obtain ⟨rfl, rfl⟩ := List.cons.inj hscopes
    refine ⟨_, _, ?_, rfl⟩
    rw [List.map_nil, leave]
    refine congrArg (·, _) (List.map_congr_left fun o _ => ?_)
    cases o <;> rfl
  | cons p ps ih =>
    rw [chain_cons, List.map_cons] at hscopes
    obtain ⟨rfl, rfl⟩ := List.cons.inj hscopes
    obtain ⟨hp, hsorted⟩ := List.pairwise_cons.mp hsorted
    obtain ⟨up, outer, houter⟩ : ∃ up outer, (chain ps).map (scopeOf steps tx) = up :: outer :=
      List.exists_cons_of_ne_nil (by simp [chain])
    have hdepth : (scopeOf steps tx (some p)).entryDepth = depthAt steps p := rfl
    rw [houter, leave, hdepth, id_scopeOf]
    by_cases hout : s.depth ≤ depthAt steps p
    · -- the innermost scope is left: close its frame and go on with the scopes around it
      rw [if_pos hout, update_map (hmem p List.mem_cons_self)]
      obtain ⟨current', outer', hleave, hscopes'⟩ :=
        ih (fun o => if o = some p then (r o).closeBefore s ((i : Int) - 1) else r o) up outer
          (fun q hq => hmem q (List.mem_cons_of_mem p hq)) hsorted houter.symm
      refine ⟨current', outer', ?_, ?_⟩
      · rw [hleave]
        refine congrArg (·, _) (List.map_congr_left fun o _ => ?_)
        rw [isOutside_cons_of_ge hout]
        by_cases ho : o = some p
        · have hnot : isOutside steps s.depth ps o = false := by
            rw [ho]
            exact decide_eq_false fun h => Nat.lt_irrefl p (hp p h.1).1
          simp [ho, ho ▸ hnot]
        · simp [ho]
      · rw [hscopes', List.filter_cons_of_neg (by simpa using hout)]
    · -- the innermost scope stays, and depths fall outwards, so all scopes stay
      have hall : ∀ q ∈ ps, depthAt steps q < s.depth := fun q hq => by
        have := (hp q hq).2
        omega
      rw [if_neg hout]
      refine ⟨scopeOf steps tx (some p), up :: outer, ?_, ?_⟩
      · refine congrArg (·, _) (List.map_congr_left fun o _ => ?_)
        rw [isOutside_cons_of_lt (Int.not_le.mp hout) (fun q hq => (hp q hq).2), if_neg nofun]
      · rw [List.filter_eq_self.mpr, chain_cons, List.map_cons, houter]
        intro q hq
        rcases List.mem_cons.mp hq with rfl | hq
        · exact decide_eq_true (Int.not_le.mp hout)
        · exact decide_eq_true (hall q hq)

/-! ### One step, by cases -/

theorem arrive_eq {frames : List Frame} {current : Scope} {outer : List Scope}
    (h : leave s i w.frames w.current w.outer = (frames, current, outer)) :
    w.arrive s i =
      { frames := update frames current.id (Frame.spend s.gasCost)
        current, outer
        owners := current.id :: w.owners } := by
  rw [arrive, h]

/-- A call opens a frame if its operands can be decoded. -/
theorem advance_of_call {op : CallOp} (hop : CallOp.ofName? s.op = some op) :
    w.advance s i =
      (s.callOperands op).map fun operands => (w.arrive s i).enter s i op operands := by
  rw [advance]
  simp only [hop]
  cases s.callOperands op <;> rfl

theorem advance_of_other (hop : CallOp.ofName? s.op = none) :
    w.advance s i =
      .ok { w.arrive s i with
        frames := update (w.arrive s i).frames (w.arrive s i).current.id (Frame.halt s) } := by
  rw [advance]
  simp only [hop]

/-! ### The invariant -/

/-- The state of the pass after `n` steps. -/
structure Shows (steps : List Step) (tx : Transaction) (n : Nat) (w : FrameWalk) : Prop where
  frames : w.frames = (openers steps n).map (history steps tx n)
  scopes : w.current :: w.outer = (chain (opened steps n)).map (scopeOf steps tx)
  owners : w.owners = ((List.range n).map fun i => idOf steps (owner steps i)).reverse

theorem start_shows (steps : List Step) (tx : Transaction) :
    Shows steps tx 0 (start tx ((steps.length : Int) - 1)) where
  frames := rfl
  scopes := rfl
  owners := rfl

/-- What is true after a step has been given to its owner, before it opens a frame or halts. -/
structure Arrived (steps : List Step) (tx : Transaction) (n : Nat) (s : Step) (w : FrameWalk) :
    Prop where
  frames : w.frames = (openers steps n).map fun o =>
    let f := closing steps s n o (history steps tx n o)
    if o = owner steps n then f.spend s.gasCost else f
  current : w.current = scopeOf steps tx (owner steps n)
  scopes : w.current :: w.outer = (chain (enclosing steps n)).map (scopeOf steps tx)
  owners : w.owners = ((List.range (n + 1)).map fun i => idOf steps (owner steps i)).reverse

theorem arrive_arrived (h : Shows steps tx n w) (hs : steps[n]? = some s) :
    Arrived steps tx n s (w.arrive s n) := by
  have hmem : ∀ p ∈ opened steps n, some p ∈ openers steps n := fun p hp =>
    mem_openers_of_mem_chain (List.mem_append_left _ (List.mem_map_of_mem hp))
  obtain ⟨current, outer, hleave, hscopes⟩ :=
    leave_map (s := s) (i := n) (opened steps n) (history steps tx n) w.current w.outer hmem
      (opened_pairwise steps n) h.scopes
  have hclosing : (fun o => if isOutside steps s.depth (opened steps n) o
      then (history steps tx n o).closeBefore s ((n : Int) - 1) else history steps tx n o) =
      fun o => closing steps s n o (history steps tx n o) := by
    funext o
    rw [closing, isLeft_eq_isOutside, depthAt_of_getElem? hs]
  have henclosing : (opened steps n).filter (fun p => decide (depthAt steps p < s.depth)) =
      enclosing steps n := by
    rw [enclosing, depthAt_of_getElem? hs]
  rw [henclosing] at hscopes
  have hcurrent : current = scopeOf steps tx (owner steps n) := by
    rw [chain_enclosing, List.map_cons] at hscopes
    exact (List.cons.inj hscopes).1
  rw [h.frames.symm, hclosing] at hleave
  rw [arrive_eq hleave]
  refine ⟨?_, hcurrent, hscopes, ?_⟩
  · have howner : owner steps n ∈ openers steps n := owner_mem_openers (Nat.le_refl n)
    rw [hcurrent, id_scopeOf, update_map howner]
  · rw [List.range_succ, List.map_append, List.reverse_append, ← h.owners, hcurrent, id_scopeOf]
    rfl

/-- **The step lemma, for a call**: the frame that the call opens is the last one, and the owner of
the call adopts it. -/
theorem enter_shows {op : CallOp} {operands : CallOperands} (h : Arrived steps tx n s w)
    (hs : steps[n]? = some s) (hop : CallOp.ofName? s.op = some op)
    (hoperands : s.callOperands op = .ok operands) :
    Shows steps tx (n + 1) (w.enter s n op operands) := by
  have hcall : (callAt? steps n).isSome := by rw [callAt?_of_getElem? hs, hop]; rfl
  have hdecoded : operandsAt steps n = operands := by
    rw [operandsAt, hs, Option.bind_some, hop, Option.bind_some, hoperands]
    rfl
  have hid : w.frames.length = idOf steps (some n) := by
    rw [h.frames, List.length_map, length_openers]
  have hbirth : child s n op (scopeOf steps tx (owner steps n)) (idOf steps (some n)) operands =
      history steps tx (n + 1) (some n) := by
    rw [history_of_le (Nat.le_refl _), birth_some hs hop, hdecoded]
  refine ⟨?_, ?_, h.owners⟩
  · have howner : owner steps n ∈ openers steps n := owner_mem_openers (Nat.le_refl n)
    -- spending gas and adopting the new frame is all that happens to the frames so far
    have hold : ∀ o ∈ openers steps n, (if o = owner steps n
        then Frame.adopt (idOf steps (some n))
          (let f := closing steps s n o (history steps tx n o)
          if o = owner steps n then f.spend s.gasCost else f)
        else
          let f := closing steps s n o (history steps tx n o)
          if o = owner steps n then f.spend s.gasCost else f) = history steps tx (n + 1) o := by
      intro o _
      rw [history_succ hs, working, hop]
      by_cases ho : o = owner steps n
      · simp [ho]
      · simp [ho, Ne.symm ho]
    rw [enter, openers_succ, if_pos hcall, List.map_append, List.map_singleton, ← hbirth, hid,
      h.current, id_scopeOf, h.frames, update_map howner, List.map_congr_left hold]
  · have hscope : (⟨w.frames.length,
        (child s n op w.current w.frames.length operands).depth, s.depth,
          operands.target⟩ : Scope) =
        scopeOf steps tx (some n) := by
      rw [hid, h.current, child, depth_scopeOf_owner, scopeOf, hdecoded, depthAt_of_getElem? hs]
    rw [enter, opened_succ, if_pos hcall, List.singleton_append, chain_cons, List.map_cons,
      ← h.scopes, hscope]

/-- **The step lemma, for any other instruction**: a halt settles the status of the owner. -/
theorem halt_shows (h : Arrived steps tx n s w) (hs : steps[n]? = some s)
    (hop : CallOp.ofName? s.op = none) :
    Shows steps tx (n + 1)
      { w with frames := update w.frames w.current.id (Frame.halt s) } := by
  have hcall : ¬ (callAt? steps n).isSome := by rw [callAt?_of_getElem? hs, hop]; exact nofun
  have howner : owner steps n ∈ openers steps n := owner_mem_openers (Nat.le_refl n)
  refine ⟨?_, ?_, h.owners⟩
  · rw [h.current, id_scopeOf, h.frames, update_map howner, openers_succ, if_neg hcall,
      List.append_nil]
    refine List.map_congr_left fun o _ => ?_
    rw [history_succ hs, working, hop]
    by_cases ho : o = owner steps n
    · simp [ho]
    · simp [ho, Ne.symm ho]
  · rw [opened_succ, if_neg hcall, List.nil_append]
    exact h.scopes

/-- **One step of the pass keeps the invariant.** -/
theorem advance_shows (h : Shows steps tx n w) (hs : steps[n]? = some s)
    (hadvance : w.advance s n = .ok w') : Shows steps tx (n + 1) w' := by
  have harrived := arrive_arrived h hs
  cases hop : CallOp.ofName? s.op with
  | none =>
    rw [advance_of_other hop] at hadvance
    cases hadvance
    exact halt_shows harrived hs hop
  | some op =>
    rw [advance_of_call hop] at hadvance
    cases hoperands : s.callOperands op with
    | error fault =>
      rw [hoperands] at hadvance
      exact nomatch hadvance
    | ok operands =>
      rw [hoperands] at hadvance
      cases hadvance
      exact enter_shows harrived hs hop hoperands

/-- **A whole run keeps the invariant.** -/
theorem run_shows {rest : List Step} (h : Shows steps tx n w) (hrest : steps.drop n = rest)
    (hn : n ≤ steps.length) (hrun : w.run n rest = .ok w') : Shows steps tx steps.length w' := by
  induction rest generalizing n w with
  | nil =>
    have hlen : n = steps.length := by
      have := List.drop_eq_nil_iff.mp hrest
      omega
    cases hrun
    exact hlen ▸ h
  | cons s rest ih =>
    have hlt : n < steps.length := by
      by_contra hlt
      rw [List.drop_eq_nil_of_le (Nat.le_of_not_lt hlt)] at hrest
      exact nomatch hrest
    obtain ⟨hs, hrest⟩ := List.cons.inj ((List.drop_eq_getElem_cons hlt).symm.trans hrest)
    rw [run] at hrun
    cases hadvance : w.advance s n with
    | error fault =>
      rw [hadvance] at hrun
      exact nomatch hrun
    | ok w₁ =>
      rw [hadvance] at hrun
      have hget : steps[n]? = some s := by rw [List.getElem?_eq_getElem hlt, hs]
      exact ih (advance_shows h hget hadvance) hrest hlt hrun

/-! ### The end of the trace -/

/-- Closing each frame of a list once. -/
theorem foldl_close_map (os : List (Option Nat)) (r : Option Nat → Frame) (last : Int)
    (hmem : ∀ o ∈ os, o ∈ openers steps n) (hnodup : os.Nodup) :
    (os.map (scopeOf steps tx)).foldl
        (fun fs scope => update fs scope.id (Frame.closeAtEnd last)) ((openers steps n).map r) =
      (openers steps n).map fun o => if o ∈ os then (r o).closeAtEnd last else r o := by
  induction os generalizing r with
  | nil => simp
  | cons p os ih =>
    obtain ⟨hp, hnodup⟩ := List.nodup_cons.mp hnodup
    rw [List.map_cons, List.foldl_cons, id_scopeOf, update_map (hmem p List.mem_cons_self),
      ih _ (fun o ho => hmem o (List.mem_cons_of_mem p ho)) hnodup]
    refine List.map_congr_left fun o _ => ?_
    by_cases ho : o = p
    · simp [ho, hp]
    · simp [ho]

/-- The result of reconstruction as a function of positions. -/
def reconstruction (steps : List Step) (tx : Transaction) : CallFrames :=
  ⟨(openers steps steps.length).map (record steps tx),
    ((List.range steps.length).map fun i => (idOf steps (owner steps i) : Int)).toArray⟩

theorem finish_eq_reconstruction (h : Shows steps tx steps.length w) :
    w.finish ((steps.length : Int) - 1) = reconstruction steps tx := by
  have hframes : (w.current :: w.outer).foldl
      (fun fs scope => update fs scope.id (Frame.closeAtEnd ((steps.length : Int) - 1))) w.frames =
      (openers steps steps.length).map (record steps tx) := by
    rw [h.scopes, h.frames,
      foldl_close_map _ _ _ (fun o ho => mem_openers_of_mem_chain ho) (chain_opened_nodup _ _)]
    refine List.map_congr_left fun o _ => ?_
    rw [record]
    exact if_congr mem_chain_opened_iff rfl rfl
  have howners : w.owners.reverse.map Int.ofNat =
      (List.range steps.length).map fun i => (idOf steps (owner steps i) : Int) := by
    rw [h.owners, List.reverse_reverse, List.map_map]
    rfl
  rw [finish, reconstruction]
  exact congrArg₂ CallFrames.mk hframes (congrArg List.toArray howners)

theorem build_of_ne_nil (hne : steps ≠ []) :
    CallFrames.build steps tx =
      ((start tx ((steps.length : Int) - 1)).run 0 steps).map fun w =>
        w.finish ((steps.length : Int) - 1) := by
  rw [CallFrames.build, if_neg (by simpa using hne)]
  cases hrun : (start tx ((steps.length : Int) - 1)).run 0 steps <;> simp only [hrun] <;> rfl

/-- **Reconstruction is a function of the nesting**: where it returns for a trace that is not empty,
it returns the frames of all calls with their histories and the owners of all steps. -/
theorem build_eq_reconstruction {c : CallFrames} (h : CallFrames.build steps tx = .ok c)
    (hne : steps ≠ []) : c = reconstruction steps tx := by
  rw [build_of_ne_nil hne] at h
  cases hrun : (start tx ((steps.length : Int) - 1)).run 0 steps with
  | error fault =>
    rw [hrun] at h
    exact nomatch h
  | ok w =>
    rw [hrun] at h
    cases h
    exact finish_eq_reconstruction
      (run_shows (start_shows steps tx) (List.drop_zero) (Nat.zero_le _) hrun)

/-- A trace that is not empty is what gives frames. -/
theorem build_eq_reconstruction_of_mem {c : CallFrames} {f : Frame}
    (h : CallFrames.build steps tx = .ok c) (hf : f ∈ c.frames) : c = reconstruction steps tx := by
  refine build_eq_reconstruction h ?_
  rintro rfl
  cases h
  exact nomatch hf

end TraceAudit.Nesting
