import TraceAudit.Proofs.Frame.Walk

/-!
# The frames of a reconstruction

What the records of `reconstruction` say, field by field, in terms of `Nesting`. The fields that a
frame is born with are read off `opening_record`; the steps from the call to the last step of a
frame are the call and the positions that it encloses (`encloses_iff_le_endStep`).
-/

namespace TraceAudit.Nesting

variable {steps : List Step} {tx : Transaction} {p q i : Nat} {s : Step} {op : CallOp}
  {o : Option Nat} {f : Frame}

theorem mem_frames_iff :
    f ∈ (reconstruction steps tx).frames ↔
      ∃ o ∈ openers steps steps.length, record steps tx o = f :=
  List.mem_map

theorem frames_reconstruction (steps : List Step) (tx : Transaction) :
    (reconstruction steps tx).frames =
      record steps tx none ::
        (calls steps steps.length).map fun p => record steps tx (some p) := by
  rw [reconstruction, openers, List.map_cons, List.map_map]
  rfl

theorem mem_tail_frames_iff :
    f ∈ (calls steps steps.length).map (fun p => record steps tx (some p)) ↔
      ∃ p, p < steps.length ∧ (callAt? steps p).isSome ∧ record steps tx (some p) = f := by
  simp only [List.mem_map, mem_calls_iff, and_assoc]

/-- The frames of a reconstruction are that of the transaction and those of the calls. -/
theorem eq_record_of_mem_frames {f : Frame} (hf : f ∈ (reconstruction steps tx).frames) :
    f = record steps tx none ∨
      ∃ p, p < steps.length ∧ (callAt? steps p).isSome ∧ f = record steps tx (some p) := by
  rw [frames_reconstruction] at hf
  rcases List.mem_cons.mp hf with rfl | hf
  · exact .inl rfl
  · obtain ⟨p, hp, hcall, rfl⟩ := mem_tail_frames_iff.mp hf
    exact .inr ⟨p, hp, hcall, rfl⟩

theorem record_mem_frames {o : Option Nat} (ho : o ∈ openers steps steps.length) :
    record steps tx o ∈ (reconstruction steps tx).frames :=
  List.mem_map_of_mem ho

theorem some_mem_openers (hp : (callAt? steps p).isSome) :
    some p ∈ openers steps steps.length :=
  some_mem_openers_iff.mpr ⟨lt_length_of_callAt? hp, hp⟩

theorem size_stepToFrame (steps : List Step) (tx : Transaction) :
    (reconstruction steps tx).stepToFrame.size = steps.length := by
  rw [reconstruction, List.size_toArray, List.length_map, List.length_range]

theorem getElem?_stepToFrame (hi : i < steps.length) :
    (reconstruction steps tx).stepToFrame[i]? = some (idOf steps (owner steps i) : Int) := by
  rw [reconstruction, List.getElem?_toArray, List.getElem?_map, List.getElem?_range hi,
    Option.map_some]

/-! ### Fields of birth -/

variable (tx) in
/-- The frame of a call agrees with its birth in every field that no event touches. -/
theorem opening_record_some (hs : steps[p]? = some s) (hop : CallOp.ofName? s.op = some op) :
    (record steps tx (some p)).opening =
      (FrameWalk.child s p op (scopeOf steps tx (owner steps p)) (idOf steps (some p))
        (operandsAt steps p)).opening := by
  rw [opening_record, birth_some hs hop]

theorem id_record (ho : o ∈ openers steps steps.length) :
    (record steps tx o).id = idOf steps o := by
  cases o with
  | none =>
    have h := congrArg Frame.id (opening_record steps tx none)
    exact h
  | some p =>
    obtain ⟨s, op, hs, hop⟩ := exists_of_callAt? (some_mem_openers_iff.mp ho).2
    have h := congrArg Frame.id (opening_record_some tx hs hop)
    exact h

variable (steps tx) in
theorem id_record_none : (record steps tx none).id = 0 :=
  id_record (none_mem_openers steps steps.length)

theorem id_record_some (hp : (callAt? steps p).isSome) :
    (record steps tx (some p)).id = idOf steps (some p) :=
  id_record (some_mem_openers hp)

theorem parent_record_none : (record steps tx none).parent = none := by
  have h := congrArg Frame.parent (opening_record steps tx none)
  exact h

theorem depth_record_none : (record steps tx none).depth = 0 := by
  have h := congrArg Frame.depth (opening_record steps tx none)
  exact h

theorem kind_record_none : (record steps tx none).kind = .root := by
  have h := congrArg Frame.kind (opening_record steps tx none)
  exact h

theorem startStep_record_none : (record steps tx none).startStep = 0 := by
  have h := congrArg Frame.startStep (opening_record steps tx none)
  exact h

/-- The parent of a frame is the owner of its call. -/
theorem parent_record_some (hp : (callAt? steps p).isSome) :
    (record steps tx (some p)).parent = some (idOf steps (owner steps p) : Int) := by
  obtain ⟨s, op, hs, hop⟩ := exists_of_callAt? hp
  have h := congrArg Frame.parent (opening_record_some tx hs hop)
  rw [← id_scopeOf steps tx]
  exact h

theorem depth_record_some (hp : (callAt? steps p).isSome) :
    (record steps tx (some p)).depth = (enclosing steps p).length + 1 := by
  obtain ⟨s, op, hs, hop⟩ := exists_of_callAt? hp
  have h := congrArg Frame.depth (opening_record_some tx hs hop)
  rw [← depth_scopeOf_owner steps tx]
  exact h

theorem startStep_record_some (hp : (callAt? steps p).isSome) :
    (record steps tx (some p)).startStep = p := by
  obtain ⟨s, op, hs, hop⟩ := exists_of_callAt? hp
  have h := congrArg Frame.startStep (opening_record_some tx hs hop)
  exact h

theorem entryDepth_record_some (hs : steps[p]? = some s) (hop : CallOp.ofName? s.op = some op) :
    (record steps tx (some p)).entryDepth = s.depth := by
  have h := congrArg Frame.entryDepth (opening_record_some tx hs hop)
  exact h

theorem kind_record_some (hs : steps[p]? = some s) (hop : CallOp.ofName? s.op = some op) :
    (record steps tx (some p)).kind = .opened op := by
  have h := congrArg Frame.kind (opening_record_some tx hs hop)
  exact h

theorem operands_record_some (hs : steps[p]? = some s) (hop : CallOp.ofName? s.op = some op) :
    (⟨(record steps tx (some p)).target, (record steps tx (some p)).value,
      (record steps tx (some p)).input⟩ : CallOperands) = operandsAt steps p := by
  have h := congrArg (fun f : Frame => (⟨f.target, f.value, f.input⟩ : CallOperands))
    (opening_record_some tx hs hop)
  exact h

/-- A frame has the target that its scope shows to the calls inside of it. -/
theorem target_record (ho : o ∈ openers steps steps.length) :
    (record steps tx o).target = (scopeOf steps tx o).target := by
  cases o with
  | none =>
    have h := congrArg Frame.target (opening_record steps tx none)
    exact h
  | some p =>
    obtain ⟨s, op, hs, hop⟩ := exists_of_callAt? (some_mem_openers_iff.mp ho).2
    have h := congrArg Frame.target (opening_record_some tx hs hop)
    exact h

/-- What a frame calls is called by its target. -/
theorem sender_record_some (hp : (callAt? steps p).isSome) :
    (record steps tx (some p)).sender = (record steps tx (owner steps p)).target := by
  obtain ⟨s, op, hs, hop⟩ := exists_of_callAt? hp
  have h := congrArg Frame.sender (opening_record_some tx hs hop)
  rw [target_record (owner_mem_openers (Nat.le_of_lt (lt_length_of_callAt? hp)))]
  exact h

theorem selector_record_some (hs : steps[p]? = some s) (hop : CallOp.ofName? s.op = some op) :
    (record steps tx (some p)).selector =
      if op.creates then none else (record steps tx (some p)).input.bind Calldata.selector? := by
  have hinput : (record steps tx (some p)).input = (operandsAt steps p).input :=
    congrArg CallOperands.input (operands_record_some hs hop)
  have h := congrArg Frame.selector (opening_record_some tx hs hop)
  rw [hinput]
  exact h

/-- A frame of a call is the record of the call that it starts with. -/
theorem eq_record_of_startStep
    (hf : f ∈ (calls steps steps.length).map fun p => record steps tx (some p))
    (hp : f.startStep = p) : (callAt? steps p).isSome ∧ f = record steps tx (some p) := by
  obtain ⟨q, -, hq, rfl⟩ := mem_tail_frames_iff.mp hf
  rw [startStep_record_some hq] at hp
  obtain rfl := Int.ofNat_inj.mp hp
  exact ⟨hq, rfl⟩

/-- The parent of the frame of a call is the frame that owns the call, and no other. -/
theorem parent_eq_some_id_iff {o : Option Nat} (hq : (callAt? steps q).isSome)
    (ho : o ∈ openers steps steps.length) :
    (record steps tx (some q)).parent = some (record steps tx o).id ↔ owner steps q = o := by
  have howner : owner steps q ∈ openers steps steps.length :=
    owner_mem_openers (Nat.le_of_lt (lt_length_of_callAt? hq))
  rw [parent_record_some hq, id_record ho, Option.some_inj, Int.ofNat_inj, idOf_inj howner ho]

/-- The frames with a parent are those of the calls that the parent owns. -/
theorem exists_call_of_parent {o : Option Nat} {g : Frame} (ho : o ∈ openers steps steps.length)
    (hg : g ∈ (reconstruction steps tx).frames)
    (hparent : g.parent = some (record steps tx o).id) :
    ∃ q, (callAt? steps q).isSome ∧ owner steps q = o ∧ g = record steps tx (some q) := by
  rcases eq_record_of_mem_frames hg with rfl | ⟨q, -, hq, rfl⟩
  · rw [parent_record_none] at hparent
    exact nomatch hparent
  · exact ⟨q, hq, (parent_eq_some_id_iff hq ho).mp hparent, rfl⟩

/-! ### Order of ids -/

theorem idOf_openers (steps : List Step) (n : Nat) :
    (openers steps n).map (idOf steps) = List.range (openers steps n).length := by
  refine List.ext_getElem? fun k => ?_
  rw [List.getElem?_map]
  cases hk : (openers steps n)[k]? with
  | none => rw [Option.map_none, List.getElem?_eq_none]; simpa using hk
  | some o =>
    have hlt : k < (openers steps n).length := (List.getElem?_eq_some_iff.mp hk).1
    rw [List.getElem?_range hlt, Option.map_some, ← eq_idOf_of_getElem? hk]

theorem ids_reconstruction (steps : List Step) (tx : Transaction) :
    (reconstruction steps tx).frames.map Frame.id =
      ((openers steps steps.length).map (idOf steps)).map Int.ofNat := by
  rw [reconstruction, List.map_map, List.map_map]
  exact List.map_congr_left fun o ho => id_record ho

theorem idOf_some_lt_iff (hp : (callAt? steps p).isSome) (hq : (callAt? steps q).isSome) :
    idOf steps (some p) < idOf steps (some q) ↔ p < q := by
  have hlt : ∀ {a b : Nat}, (callAt? steps a).isSome → a < b →
      idOf steps (some a) < idOf steps (some b) := fun ha hab =>
    Nat.succ_lt_succ (length_calls_lt_of_lt ha hab)
  refine ⟨fun h => ?_, hlt hp⟩
  by_contra hpq
  rcases Nat.lt_or_eq_of_le (Nat.le_of_not_lt hpq) with hqp | rfl
  · exact Nat.lt_asymm h (hlt hq hqp)
  · exact Nat.lt_irrefl _ h

/-! ### The steps of a frame -/

theorem endStep_record_none_of_ne_nil (hne : steps ≠ []) :
    (record steps tx none).endStep = (steps.length : Int) - 1 := by
  have := List.length_pos_iff.mpr hne
  rw [endStep_record_none]
  omega

variable (tx) in
/-- **A call encloses exactly the positions behind it up to the last step of its frame.** -/
theorem encloses_iff_le_endStep (hp : (callAt? steps p).isSome) (hi : i < steps.length) :
    Encloses steps p i ↔ p < i ∧ (i : Int) ≤ (record steps tx (some p)).endStep := by
  have hlt := lt_length_of_callAt? hp
  -- the frame ends with the trace, or before the step that leaves its scope
  rcases mem_opened_or_leaves hp hlt with hopen | ⟨j, hj, hleaves⟩
  · rw [endStep_record_of_opened hopen]
    refine ⟨fun h => ⟨h.2.1, by omega⟩, fun ⟨hpi, _⟩ => ⟨hp, hpi, fun k hk hpk => ?_⟩⟩
    exact (mem_opened_iff.mp hopen).2.2 k (by omega) hpk
  · rw [endStep_record_of_leaves hp hleaves hj, hleaves.encloses_iff hp]
    omega

variable (tx) in
theorem endStep_record_bounds (hp : (callAt? steps p).isSome) :
    (p : Int) ≤ (record steps tx (some p)).endStep ∧
      (record steps tx (some p)).endStep ≤ (steps.length : Int) - 1 := by
  have hlt := lt_length_of_callAt? hp
  rcases mem_opened_or_leaves hp hlt with hopen | ⟨j, hj, hleaves⟩
  · rw [endStep_record_of_opened hopen]
    omega
  · have := hleaves.1
    rw [endStep_record_of_leaves hp hleaves hj]
    omega

/-- The frame of a call lies inside of the frame of every call around it. -/
theorem endStep_le_of_encloses (h : Encloses steps p q) (hq : (callAt? steps q).isSome) :
    (record steps tx (some q)).endStep ≤ (record steps tx (some p)).endStep := by
  obtain ⟨hlow, hhigh⟩ := endStep_record_bounds tx hq
  obtain ⟨e, he⟩ : ∃ e : Nat, (record steps tx (some q)).endStep = e :=
    Int.eq_ofNat_of_zero_le (by omega)
  -- the last step of the inner frame is either enclosed by the inner call or this call itself
  have heN : e < steps.length := by omega
  rw [he]
  rcases Nat.lt_or_ge q e with hqe | hqe
  · have hqenc : Encloses steps q e := (encloses_iff_le_endStep tx hq heN).mpr ⟨hqe, by omega⟩
    exact ((encloses_iff_le_endStep tx h.1 heN).mp (h.trans hqenc)).2
  · have heq : e = q := by omega
    subst heq
    exact ((encloses_iff_le_endStep tx h.1 heN).mp h).2

/-- What a call encloses lies under more calls than the call itself. -/
theorem length_enclosing_lt (h : Encloses steps p i) :
    (enclosing steps p).length < (enclosing steps i).length := by
  -- induction along the owners of `i`, each of which stands before the last
  induction i using Nat.strongRecOn with
  | ind i ih =>
    cases ho : owner steps i with
    | none => exact absurd h (owner_eq_none_iff.mp ho p)
    | some r =>
      have hlen : (enclosing steps i).length = (enclosing steps r).length + 1 := by
        rw [enclosing_of_owner ho, List.length_cons]
      rcases (encloses_iff_of_owner ho).mp h with rfl | hpr
      · omega
      · have := ih r (owner_lt ho) hpr
        omega

end TraceAudit.Nesting
