import TraceAudit.Proofs.Frame.Refusal

/-!
# Flattening a tree of calls

A body of code is a tree: a list of steps, where a call carries the body of its callee. Running it
writes the tree down as a trace, each body one deeper than the call that runs it (`Body.flatten`).
Reconstruction gives the tree back (`build_flatten`).

The proof does not follow the pass. A body that is written down in a trace stands there between
steps that are known well enough (`Body.Placed`): all steps since its call are at least as deep as
the body, and the step behind it is less deep. What `Nesting` says of the positions of such a body
is then shown by induction on the body, one induction for owners, one for children and one for
frames.
-/

namespace TraceAudit

/-- A body of code: a list whose items are steps, where a call carries the body of its callee. -/
inductive Body where
  | done
  /-- A step that is no call, and the items behind it. -/
  | plain (s : Step) (other : CallOp.ofName? s.op = none) (rest : Body)
  /-- A call with the body of its callee, and the items behind it. -/
  | call (s : Step) (op : CallOp) (named : CallOp.ofName? s.op = some op) (callee rest : Body)

/-- What a frame says of the tree of calls. -/
structure Outline where
  id : Int
  parent : Option Int
  depth : Int
  kind : FrameKind
  startStep : Int
  endStep : Int
  children : List Int
deriving DecidableEq, Repr

/-- What a frame says of the tree of calls. -/
def Frame.outline (f : Frame) : Outline :=
  ⟨f.id, f.parent, f.depth, f.kind, f.startStep, f.endStep, f.children⟩

namespace Body

/-- The trace of a body that runs at a depth: each item's own step at this depth, and behind the
step of a call the trace of the callee, one deeper. -/
def flatten (d : Int) : Body → List Step
  | done => []
  | plain s _ rest => { s with depth := d } :: rest.flatten d
  | call s _ _ callee rest => { s with depth := d } :: (callee.flatten (d + 1) ++ rest.flatten d)

/-- The number of steps. -/
def size : Body → Nat
  | done => 0
  | plain _ _ rest => 1 + rest.size
  | call _ _ _ callee rest => 1 + callee.size + rest.size

/-- The number of calls. -/
def callCount : Body → Nat
  | done => 0
  | plain _ _ rest => rest.callCount
  | call _ _ _ callee rest => 1 + callee.callCount + rest.callCount

/-- The ids of the calls that are items of the body itself, where `id` is the next free id. -/
def childIds (id : Nat) : Body → List Int
  | done => []
  | plain _ _ rest => rest.childIds id
  | call _ _ _ callee rest => id :: rest.childIds (id + 1 + callee.callCount)

/-- The frames of the steps of a body that the frame `self` runs, where `id` is the next free id. -/
def owners (self id : Nat) : Body → List Int
  | done => []
  | plain _ _ rest => self :: rest.owners self id
  | call _ _ _ callee rest =>
    self :: (callee.owners id (id + 1) ++ rest.owners self (id + 1 + callee.callCount))

/-- The frames of the calls of a body that the frame `self` runs, in the order of the calls. The
calls of the body itself open frames of the depth `depth`; `id` is the next free id and `pos` the
position of the first step of the body. -/
def outlines (self : Nat) (depth : Int) (id pos : Nat) : Body → List Outline
  | done => []
  | plain _ _ rest => rest.outlines self depth id (pos + 1)
  | call _ op _ callee rest =>
    { id := id
      parent := some self
      depth := depth
      kind := .opened op
      startStep := pos
      endStep := pos + callee.size
      children := callee.childIds (id + 1) } ::
      (callee.outlines id (depth + 1) (id + 1) (pos + 1) ++
        rest.outlines self depth (id + 1 + callee.callCount) (pos + 1 + callee.size))

/-- The frames of a transaction that runs a body. -/
def frames (b : Body) : List Outline :=
  { id := 0
    parent := none
    depth := 0
    kind := .root
    startStep := 0
    endStep := b.size - 1
    children := b.childIds 1 } :: b.outlines 0 1 1 0

/-! ### Traces of bodies -/

theorem length_flatten (b : Body) (d : Int) : (b.flatten d).length = b.size := by
  induction b generalizing d with
  | done => rfl
  | plain s other rest ih => rw [flatten, List.length_cons, ih, size, Nat.add_comm]
  | call s op named callee rest ihCallee ihRest =>
    rw [flatten, List.length_cons, List.length_append, ihCallee, ihRest, size]
    omega

theorem flatten_ne_nil (b : Body) (d : Int) (hne : b ≠ .done) : b.flatten d ≠ [] := by
  cases b with
  | done => exact absurd rfl hne
  | plain s other rest => exact List.cons_ne_nil _ _
  | call s op named callee rest => exact List.cons_ne_nil _ _

/-- No step of a body is less deep than the body. -/
theorem depth_ge_of_mem_flatten {b : Body} {d : Int} {s : Step} (h : s ∈ b.flatten d) :
    d ≤ s.depth := by
  induction b generalizing d with
  | done => exact absurd h List.not_mem_nil
  | plain t other rest ih =>
    rcases List.mem_cons.mp h with rfl | h
    · exact Int.le_refl d
    · exact ih h
  | call t op named callee rest ihCallee ihRest =>
    rcases List.mem_cons.mp h with rfl | h
    · exact Int.le_refl d
    rcases List.mem_append.mp h with h | h
    · have := ihCallee h
      omega
    · exact ihRest h

/-- The first step of a body is as deep as the body. -/
theorem depth_of_head?_flatten {b : Body} {d : Int} {s : Step} (h : (b.flatten d).head? = some s) :
    s.depth = d := by
  cases b with
  | done => exact nomatch h
  | plain t other rest => cases h; rfl
  | call t op named callee rest => cases h; rfl

end Body

/-! ### Calls of an owner -/

namespace Nesting

variable {steps : List Step} {o : Option Nat} {p : Nat}

/-- The calls among `n` positions from `p` on that `o` owns. -/
def ownedCalls (steps : List Step) (o : Option Nat) (p n : Nat) : List Nat :=
  (List.range' p n).filter fun i => (callAt? steps i).isSome ∧ owner steps i = o

theorem ownedCalls_append (steps : List Step) (o : Option Nat) (p m n : Nat) :
    ownedCalls steps o p (m + n) = ownedCalls steps o p m ++ ownedCalls steps o (p + m) n := by
  rw [ownedCalls, ← List.range'_append_1, List.filter_append]
  rfl

theorem ownedCalls_eq_nil {n : Nat}
    (h : ∀ i, p ≤ i → i < p + n → (callAt? steps i).isSome → owner steps i ≠ o) :
    ownedCalls steps o p n = [] := by
  refine List.filter_eq_nil_iff.mpr fun i hi => ?_
  obtain ⟨hle, hlt⟩ := List.mem_range'_1.mp hi
  rw [decide_eq_true_eq]
  exact fun ⟨hcall, howner⟩ => h i hle hlt hcall howner

theorem ownedCalls_one (hp : (callAt? steps p).isSome) (howner : owner steps p = o) :
    ownedCalls steps o p 1 = [p] := by
  rw [ownedCalls, List.range'_one]
  exact List.filter_cons_of_pos (decide_eq_true ⟨hp, howner⟩)

variable (steps o) in
/-- The children of a frame are the calls that it owns. -/
theorem children_eq_map_ownedCalls (tx : Transaction) :
    (record steps tx o).children =
      (ownedCalls steps o 0 steps.length).map fun i => (idOf steps (some i) : Int) := by
  rw [children_record, calls, List.filter_filter, List.range_eq_range', ownedCalls]
  refine congrArg (List.map _) (List.filter_congr fun i _ => ?_)
  rw [Bool.decide_and, Bool.decide_coe, Bool.and_comm]

end Nesting

/-! ### Bodies inside of a trace -/

open Nesting

/-- The body `b` is written down at depth `d` from position `p` on, and it is a part of the code
that `o` runs: all steps since the call at `o` are at least as deep as the body, and the step behind
the body, if there is one, is less deep. -/
structure Body.Placed (steps : List Step) (b : Body) (d : Int) (o : Option Nat) (p : Nat) :
    Prop where
  code : ∃ after, steps.drop p = b.flatten d ++ after ∧ ∀ s, after.head? = some s → s.depth < d
  caller : ∀ q, o = some q → (callAt? steps q).isSome ∧ q < p ∧ depthAt steps q < d
  deep : ∀ j < p, (∀ q, o = some q → q < j) → d ≤ depthAt steps j

namespace Body.Placed

variable {steps : List Step} {tx : Transaction} {b callee rest : Body} {d : Int} {o : Option Nat}
  {p i : Nat} {s : Step} {op : CallOp} {other : CallOp.ofName? s.op = none}
  {named : CallOp.ofName? s.op = some op}

/-- The whole trace of a body is placed in itself. -/
theorem whole (b : Body) (d : Int) : Placed (b.flatten d) b d none 0 where
  code := ⟨[], by simp, nofun⟩
  caller := nofun
  deep := fun j hj => absurd hj (Nat.not_lt_zero j)

theorem size_le (h : Placed steps b d o p) (hp : p ≤ steps.length) :
    p + b.size ≤ steps.length := by
  obtain ⟨after, hcode, -⟩ := h.code
  have hlen := congrArg List.length hcode
  rw [List.length_drop, List.length_append, length_flatten] at hlen
  omega

theorem depthAt_ge (h : Placed steps b d o p) (hi : p ≤ i) (hilt : i < p + b.size) :
    d ≤ depthAt steps i := by
  obtain ⟨after, hcode, -⟩ := h.code
  obtain ⟨k, rfl⟩ := Nat.exists_eq_add_of_le hi
  have hk : k < (b.flatten d).length := by rw [length_flatten]; omega
  have hget : steps[p + k]? = some (b.flatten d)[k] := by
    rw [← List.getElem?_drop, hcode, List.getElem?_append_left hk, List.getElem?_eq_getElem hk]
  rw [depthAt_of_getElem? hget]
  exact depth_ge_of_mem_flatten (List.getElem_mem hk)

/-- The step behind a body is less deep than the body. -/
theorem depthAt_lt_of_end (h : Placed steps b d o p) (hlt : p + b.size < steps.length) :
    depthAt steps (p + b.size) < d := by
  obtain ⟨after, hcode, hafter⟩ := h.code
  have hget : after.head? = steps[p + b.size]? := by
    rw [← List.getElem?_drop, hcode, List.getElem?_append_right (by rw [length_flatten]),
      length_flatten, Nat.sub_self, List.head?_eq_getElem?]
  rw [List.getElem?_eq_getElem hlt] at hget
  rw [depthAt_of_getElem? (List.getElem?_eq_getElem hlt)]
  exact hafter _ hget

/-! ### Descent -/

theorem getElem?_plain (h : Placed steps (.plain s other rest) d o p) :
    steps[p]? = some { s with depth := d } := by
  obtain ⟨after, hcode, -⟩ := h.code
  have hget := congrArg (·[0]?) hcode
  simpa [flatten] using hget

theorem getElem?_call (h : Placed steps (.call s op named callee rest) d o p) :
    steps[p]? = some { s with depth := d } := by
  obtain ⟨after, hcode, -⟩ := h.code
  have hget := congrArg (·[0]?) hcode
  simpa [flatten] using hget

theorem callAt?_plain (h : Placed steps (.plain s other rest) d o p) : callAt? steps p = none := by
  rw [callAt?_of_getElem? h.getElem?_plain]
  exact other

theorem callAt?_call (h : Placed steps (.call s op named callee rest) d o p) :
    callAt? steps p = some op := by
  rw [callAt?_of_getElem? h.getElem?_call]
  exact named

theorem isCall (h : Placed steps (.call s op named callee rest) d o p) :
    (callAt? steps p).isSome := by
  rw [h.callAt?_call]
  rfl

theorem plain_rest (h : Placed steps (.plain s other rest) d o p) :
    Placed steps rest d o (p + 1) where
  code := by
    obtain ⟨after, hcode, hafter⟩ := h.code
    refine ⟨after, ?_, hafter⟩
    rw [← List.drop_drop, hcode]
    rfl
  caller q hq := by
    obtain ⟨hcall, hlt, hdepth⟩ := h.caller q hq
    exact ⟨hcall, by omega, hdepth⟩
  deep j hj hq := by
    rcases Nat.lt_succ_iff_lt_or_eq.mp hj with hj | rfl
    · exact h.deep j hj hq
    · exact Int.le_of_eq (depthAt_of_getElem? h.getElem?_plain).symm

theorem call_callee (h : Placed steps (.call s op named callee rest) d o p) :
    Placed steps callee (d + 1) (some p) (p + 1) where
  code := by
    obtain ⟨after, hcode, hafter⟩ := h.code
    refine ⟨rest.flatten d ++ after, ?_, fun t ht => ?_⟩
    · rw [← List.drop_drop, hcode]
      exact List.append_assoc _ _ _
    · rw [List.head?_append, Option.or_eq_some_iff] at ht
      rcases ht with ht | ⟨-, ht⟩
      · have := depth_of_head?_flatten ht
        omega
      · have := hafter t ht
        omega
  caller q hq := by
    obtain rfl := Option.some_inj.mp hq
    have hdepth := depthAt_of_getElem? h.getElem?_call
    exact ⟨h.isCall, Nat.lt_succ_self p, by rw [hdepth]; exact Int.lt_succ d⟩
  deep j hj hq := absurd (hq p rfl) (by omega)

theorem call_rest (h : Placed steps (.call s op named callee rest) d o p) :
    Placed steps rest d o (p + 1 + callee.size) where
  code := by
    obtain ⟨after, hcode, hafter⟩ := h.code
    refine ⟨after, ?_, hafter⟩
    have hdrop : steps.drop (p + 1) = callee.flatten (d + 1) ++ (rest.flatten d ++ after) := by
      rw [← List.drop_drop, hcode]
      exact List.append_assoc _ _ _
    rw [← List.drop_drop, hdrop, ← length_flatten callee (d + 1), List.drop_left]
  caller q hq := by
    obtain ⟨hcall, hlt, hdepth⟩ := h.caller q hq
    exact ⟨hcall, by omega, hdepth⟩
  deep j hj hq := by
    rcases Nat.lt_or_ge j p with hjp | hjp
    · exact h.deep j hjp hq
    · exact h.depthAt_ge hjp (by rw [size]; omega)

/-! ### Owners -/

/-- A step that is as deep as the body belongs to what runs the body. -/
theorem owner_eq (h : Placed steps b d o p) (hdepth : depthAt steps p = d) :
    owner steps p = o := by
  -- what encloses the step is less deep than the body, and nothing since the call at `o` is
  have hless : ∀ c, Encloses steps c p → depthAt steps c < d := fun c hc =>
    hdepth ▸ hc.2.2 p (Nat.le_refl p) hc.2.1
  cases o with
  | none =>
    refine owner_eq_none_iff.mpr fun c hc => ?_
    have := hless c hc
    have := h.deep c hc.2.1 nofun
    omega
  | some q =>
    obtain ⟨hcall, hlt, hq⟩ := h.caller q rfl
    have hdeep : ∀ j < p, q < j → d ≤ depthAt steps j := fun j hj hqj =>
      h.deep j hj fun q' hq' => Option.some_inj.mp hq' ▸ hqj
    refine owner_eq_some_iff.mpr ⟨⟨hcall, hlt, fun j hj hqj => ?_⟩, fun c hc => ?_⟩
    · rcases Nat.lt_or_eq_of_le hj with hj | rfl
      · have := hdeep j hj hqj
        omega
      · rw [hdepth]
        exact hq
    · by_contra hcq
      have := hless c hc
      have := hdeep c hc.2.1 (Nat.lt_of_not_le hcq)
      omega

theorem owner_plain (h : Placed steps (.plain s other rest) d o p) : owner steps p = o :=
  h.owner_eq (depthAt_of_getElem? h.getElem?_plain)

theorem owner_call (h : Placed steps (.call s op named callee rest) d o p) : owner steps p = o :=
  h.owner_eq (depthAt_of_getElem? h.getElem?_call)

/-- A call encloses the body of its callee. -/
theorem encloses_callee (h : Placed steps (.call s op named callee rest) d o p) (hi : p < i)
    (hilt : i < p + 1 + callee.size) : Encloses steps p i := by
  refine ⟨h.isCall, hi, fun j hj hpj => ?_⟩
  have := h.call_callee.depthAt_ge (i := j) (by omega) (by omega)
  rw [depthAt_of_getElem? h.getElem?_call]
  exact this

/-- No step of the callee belongs to what runs the call. -/
theorem owner_ne_of_callee (h : Placed steps (.call s op named callee rest) d o p) (hi : p < i)
    (hilt : i < p + 1 + callee.size) : owner steps i ≠ o := by
  rintro rfl
  have henc := h.encloses_callee hi hilt
  cases ho : owner steps i with
  | none => exact owner_eq_none_iff.mp ho p henc
  | some q =>
    have := (owner_eq_some_iff.mp ho).2 p henc
    have := (h.caller q ho).2.1
    omega

/-! ### Numbers -/

theorem idOf_succ_plain (h : Placed steps (.plain s other rest) d o p) :
    idOf steps (some (p + 1)) = idOf steps (some p) := by
  rw [idOf, idOf, calls_succ, h.callAt?_plain]
  simp

theorem idOf_succ_call (h : Placed steps (.call s op named callee rest) d o p) :
    idOf steps (some (p + 1)) = idOf steps (some p) + 1 := by
  rw [idOf, idOf, calls_succ, if_pos h.isCall, List.length_append, List.length_singleton]

/-- A body takes one id for each of its calls. -/
theorem idOf_end (h : Placed steps b d o p) :
    idOf steps (some (p + b.size)) = idOf steps (some p) + b.callCount := by
  induction b generalizing d o p with
  | done => rfl
  | plain s other rest ih =>
    rw [size, callCount, ← Nat.add_assoc, ih h.plain_rest, h.idOf_succ_plain]
  | call s op named callee rest ihCallee ihRest =>
    rw [size, callCount, ← Nat.add_assoc, ← Nat.add_assoc, ihRest h.call_rest,
      ihCallee h.call_callee, h.idOf_succ_call]
    omega

theorem idOf_rest (h : Placed steps (.call s op named callee rest) d o p) :
    idOf steps (some (p + 1 + callee.size)) = idOf steps (some p) + 1 + callee.callCount := by
  rw [h.call_callee.idOf_end, h.idOf_succ_call]

/-- The owners of the steps of a body. -/
theorem map_owner (h : Placed steps b d o p) :
    (List.range' p b.size).map (fun i => (idOf steps (owner steps i) : Int)) =
      b.owners (idOf steps o) (idOf steps (some p)) := by
  induction b generalizing d o p with
  | done => rfl
  | plain s other rest ih =>
    rw [size, Nat.add_comm, List.range'_succ, List.map_cons, ih h.plain_rest, h.owner_plain,
      h.idOf_succ_plain, owners]
  | call s op named callee rest ihCallee ihRest =>
    rw [size, Nat.add_assoc, Nat.add_comm, List.range'_succ, ← List.range'_append_1, List.map_cons,
      List.map_append, ihCallee h.call_callee, ihRest h.call_rest, h.owner_call, h.idOf_succ_call,
      h.idOf_rest, owners]

/-! ### Children -/

/-- What runs a body owns the calls that are items of the body itself. -/
theorem map_ownedCalls (h : Placed steps b d o p) :
    (ownedCalls steps o p b.size).map (fun i => (idOf steps (some i) : Int)) =
      b.childIds (idOf steps (some p)) := by
  induction b generalizing d o p with
  | done => rfl
  | plain s other rest ih =>
    have hfirst : ownedCalls steps o p 1 = [] := ownedCalls_eq_nil fun i hi hilt hcall => by
      obtain rfl : i = p := by omega
      rw [h.callAt?_plain] at hcall
      exact absurd hcall nofun
    rw [size, ownedCalls_append, hfirst, List.nil_append, ih h.plain_rest, h.idOf_succ_plain,
      childIds]
  | call s op named callee rest ihCallee ihRest =>
    have hcallee : ownedCalls steps o (p + 1) callee.size = [] :=
      ownedCalls_eq_nil fun i hi hilt _ => h.owner_ne_of_callee (by omega) hilt
    rw [size, ownedCalls_append, ownedCalls_append, ownedCalls_one h.isCall h.owner_call, hcallee,
      List.append_nil, List.map_append, ← Nat.add_assoc, ihRest h.call_rest, h.idOf_rest, childIds]
    rfl

/-! ### Frames -/

/-- The frame of a call ends with the body of the callee. -/
theorem endStep_call (h : Placed steps (.call s op named callee rest) d o p) :
    (record steps tx (some p)).endStep = p + callee.size := by
  have hdepth := depthAt_of_getElem? h.getElem?_call
  have hplt := lt_length_of_callAt? h.isCall
  have hsize := h.call_callee.size_le hplt
  -- behind the callee stands a step that leaves the call, or nothing
  rcases Nat.lt_or_eq_of_le hsize with hlt | heq
  · have hend := h.call_callee.depthAt_lt_of_end hlt
    have hleaves : Leaves steps p (p + 1 + callee.size) :=
      ⟨by omega, by rw [hdepth]; exact Int.le_of_lt_add_one hend, fun k hk hpk =>
        (h.encloses_callee hpk hk).2.2 k (Nat.le_refl k) hpk⟩
    rw [endStep_record_of_leaves h.isCall hleaves hlt]
    omega
  · have hopen : p ∈ opened steps steps.length :=
      mem_opened_iff.mpr ⟨h.isCall, hplt, fun j hj hpj =>
        (h.encloses_callee hpj (by omega)).2.2 j (Nat.le_refl j) hpj⟩
    rw [endStep_record_of_opened hopen]
    omega

/-- The children of the frame of a call are the calls of the callee itself. -/
theorem children_call (h : Placed steps (.call s op named callee rest) d o p) :
    (record steps tx (some p)).children = callee.childIds (idOf steps (some p) + 1) := by
  have hplt := lt_length_of_callAt? h.isCall
  have hsize := h.call_callee.size_le hplt
  -- the call owns neither what stands before the callee nor what stands behind it
  have hbefore : ownedCalls steps (some p) 0 (p + 1) = [] :=
    ownedCalls_eq_nil fun i _ hilt _ howner => by
      have := owner_lt howner
      omega
  have hafter : ownedCalls steps (some p) (p + 1 + callee.size)
      (steps.length - (p + 1 + callee.size)) = [] :=
    ownedCalls_eq_nil fun i hi hilt _ howner => by
      have hle := (encloses_iff_le_endStep tx h.isCall (by omega)).mp (encloses_of_owner howner)
      rw [h.endStep_call] at hle
      omega
  have hall : ownedCalls steps (some p) 0 steps.length =
      ownedCalls steps (some p) (p + 1) callee.size := by
    have hsplit : steps.length =
        p + 1 + (callee.size + (steps.length - (p + 1 + callee.size))) := by omega
    rw [hsplit, ownedCalls_append, hbefore, List.nil_append, Nat.zero_add, ownedCalls_append,
      hafter, List.append_nil]
  rw [children_eq_map_ownedCalls, hall, h.call_callee.map_ownedCalls, h.idOf_succ_call]

/-- The frame of a call is the one that the tree says. -/
theorem outline_call (h : Placed steps (.call s op named callee rest) d o p) :
    (record steps tx (some p)).outline =
      { id := idOf steps (some p)
        parent := some (idOf steps o : Int)
        depth := (scopeOf steps tx o).depth + 1
        kind := .opened op
        startStep := p
        endStep := p + callee.size
        children := callee.childIds (idOf steps (some p) + 1) } := by
  rw [Frame.outline, id_record_some h.isCall, parent_record_some h.isCall,
    depth_record_some h.isCall, kind_record_some h.getElem?_call named,
    startStep_record_some h.isCall, h.endStep_call, h.children_call, ← depth_scopeOf_owner steps tx,
    h.owner_call]

theorem depth_scopeOf_call (h : Placed steps (.call s op named callee rest) d o p) :
    (scopeOf steps tx (some p)).depth = (scopeOf steps tx o).depth + 1 := by
  rw [← h.owner_call, depth_scopeOf_owner]
  rfl

/-- The frames of the calls of a body are those that the tree says. -/
theorem map_outline (h : Placed steps b d o p) :
    ((List.range' p b.size).filter fun i => (callAt? steps i).isSome).map
        (fun i => (record steps tx (some i)).outline) =
      b.outlines (idOf steps o) ((scopeOf steps tx o).depth + 1) (idOf steps (some p)) p := by
  induction b generalizing d o p with
  | done => rfl
  | plain s other rest ih =>
    rw [size, Nat.add_comm, List.range'_succ,
      List.filter_cons_of_neg (by rw [h.callAt?_plain]; exact nofun), ih h.plain_rest,
      h.idOf_succ_plain, outlines]
  | call s op named callee rest ihCallee ihRest =>
    rw [size, Nat.add_assoc, Nat.add_comm, List.range'_succ, ← List.range'_append_1,
      List.filter_cons_of_pos (by exact h.isCall), List.filter_append, List.map_cons,
      List.map_append,
      ihCallee h.call_callee, ihRest h.call_rest, h.outline_call, h.idOf_succ_call, h.idOf_rest,
      h.depth_scopeOf_call, outlines]

end Body.Placed

/-! ### Reconstruction -/

namespace Nesting

variable {tx : Transaction} {b : Body} {d : Int}

theorem calls_flatten (b : Body) (d : Int) :
    calls (b.flatten d) (b.flatten d).length =
      (List.range' 0 b.size).filter fun i => (callAt? (b.flatten d) i).isSome := by
  rw [calls, List.range_eq_range', b.length_flatten]

/-- The transaction runs the whole body. -/
theorem outline_root (hne : b ≠ .done) :
    (record (b.flatten d) tx none).outline =
      { id := 0
        parent := none
        depth := 0
        kind := .root
        startStep := 0
        endStep := b.size - 1
        children := b.childIds 1 } := by
  have hchildren : (record (b.flatten d) tx none).children = b.childIds 1 := by
    rw [children_eq_map_ownedCalls, b.length_flatten]
    exact (Body.Placed.whole b d).map_ownedCalls
  rw [Frame.outline, id_record_none, parent_record_none, depth_record_none, kind_record_none,
    startStep_record_none, endStep_record_none_of_ne_nil (b.flatten_ne_nil d hne),
    b.length_flatten, hchildren]

/-- The frames of the trace of a body are those that the tree says. -/
theorem outline_frames (hne : b ≠ .done) :
    (reconstruction (b.flatten d) tx).frames.map Frame.outline = b.frames := by
  rw [frames_reconstruction, List.map_cons, List.map_map, outline_root hne, calls_flatten]
  exact congrArg _ (Body.Placed.whole b d).map_outline

theorem owners_flatten :
    (reconstruction (b.flatten d) tx).stepToFrame.toList = b.owners 0 1 := by
  rw [reconstruction, b.length_flatten, List.range_eq_range']
  exact (Body.Placed.whole b d).map_owner

/-- There is one frame for each call, and that of the transaction. -/
theorem ids_flatten :
    (reconstruction (b.flatten d) tx).frames.map Frame.id =
      (List.range (1 + b.callCount)).map Int.ofNat := by
  have hcount : idOf (b.flatten d) (some b.size) = 1 + b.callCount := by
    have h := (Body.Placed.whole b d).idOf_end
    rwa [Nat.zero_add] at h
  rw [ids_reconstruction, idOf_openers, length_openers, b.length_flatten, hcount]

/-- **Reconstruction inverts flattening.** The trace of a body at any depth, in which no call asks
for call data of a negative size, gives back the tree: one frame for each call and one for the
transaction, numbered in the order of the calls, with parent, children, depth, kind and steps as the
tree says, and each step in the frame whose body it is an item of. -/
theorem build_flatten (b : Body) (d : Int) (tx : Transaction) (hne : b ≠ .done)
    (hread : ∀ s ∈ b.flatten d, ¬ s.Refused) :
    ∃ c, CallFrames.build (b.flatten d) tx = .ok c ∧
      c.frames.map Frame.id = (List.range (1 + b.callCount)).map Int.ofNat ∧
      c.frames.map Frame.outline = b.frames ∧ c.stepToFrame.toList = b.owners 0 1 := by
  obtain ⟨c, hc⟩ : ∃ c, CallFrames.build (b.flatten d) tx = .ok c := exists_build hread
  refine ⟨c, hc, ?_⟩
  rw [build_eq_reconstruction hc (b.flatten_ne_nil d hne)]
  exact ⟨ids_flatten, outline_frames hne, owners_flatten⟩

/-- A body whose first call runs another call to their common end, and whose last call runs
nothing. -/
def nestedBody : Body :=
  let step (op : String) (stack : List String) : Step := ⟨0, 0, op, 0, 3, 0, stack, []⟩
  .call (step "CALL" ["0x1", "0xaa", "0x2", "0x0", "0x0", "0x0", "0x0"]) .call rfl
    (.plain (step "ADD" []) rfl
      (.call (step "CREATE2" []) .create2 rfl (.plain (step "RETURN" []) rfl .done) .done))
    (.plain (step "POP" []) rfl (.call (step "STATICCALL" []) .staticcall rfl .done .done))

theorem build_flatten_nestedBody :
    nestedBody ≠ .done ∧ (∀ s ∈ nestedBody.flatten (-2), ¬ s.Refused) ∧
      ∃ c, CallFrames.build (nestedBody.flatten (-2)) {} = .ok c ∧
        c.frames.map Frame.id = (List.range (1 + nestedBody.callCount)).map Int.ofNat ∧
        c.frames.map Frame.outline = nestedBody.frames ∧
        c.stepToFrame.toList = nestedBody.owners 0 1 := by
  obtain ⟨c, hc⟩ : ∃ c, CallFrames.build (nestedBody.flatten (-2)) {} = .ok c := ⟨_, rfl⟩
  have hread : ∀ s ∈ nestedBody.flatten (-2), ¬ s.Refused := not_refused_of_build hc
  exact ⟨nofun, hread, build_flatten nestedBody (-2) {} nofun hread⟩

example : nestedBody.owners 0 1 = [0, 1, 1, 2, 0, 0] := rfl

end Nesting

end TraceAudit
