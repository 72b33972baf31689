import TraceAudit.Proofs.Frame.Reconstruction

/-!
# When reconstruction refuses a trace

Operands are read leniently: a word that is absent or cannot be read leaves its own field of the
frame empty and nothing else (`Step.Reads`). One reading is not lenient. The size of call data is
an integer with a sign, and a negative size is refused, which ends the whole reconstruction.

`Step.Refused` says of a step that it is a call with such a size. Reconstruction returns exactly
when no step is refused, and its only fault is `Fault.badValue` (`build_fails_iff_refused`). Where
it returns, every call opens one frame, inside of the frame that it belongs to
(`CallFrames.Opens`).
-/

namespace TraceAudit

/-! ### Call data -/

namespace Calldata

variable {memory : List String} {offset size : Option Int}

theorem read_of_negative {o n : Int} (hn : n < 0) :
    read memory (some o) (some n) = .error .badValue := by
  have hmax : ¬ maxBytes < n := by rw [maxBytes]; omega
  rw [read, if_neg (by omega), if_neg hmax, if_pos hn]

/-- Call data is read unless offset and size are there and the size is negative. -/
theorem exists_read (h : ∀ o n, offset = some o → size = some n → 0 ≤ n) :
    ∃ data, read memory offset size = .ok data := by
  cases offset with
  | none => exact ⟨none, rfl⟩
  | some o =>
    cases size with
    | none => exact ⟨none, rfl⟩
    | some n =>
      have hn : ¬ n < 0 := by have := h o n rfl rfl; omega
      rw [read, if_neg hn]
      split
      · exact ⟨_, rfl⟩
      · split <;> exact ⟨_, rfl⟩

/-- Call data that was read is absent where an operand is missing or the window is too large. -/
theorem eq_none_iff_of_read {data : Option String} (h : read memory offset size = .ok data) :
    data = none ↔ offset = none ∨ size = none ∨ ∃ n, size = some n ∧ maxBytes < n := by
  cases offset with
  | none => cases h; simp
  | some o =>
    cases size with
    | none => cases h; simp
    | some n =>
      rw [read] at h
      simp only [reduceCtorEq, Option.some.injEq, false_or, exists_eq_left']
      split at h
      · next hn => cases h; rw [hn, maxBytes]; simp
      · split at h
        · next hmax => cases h; simp [hmax]
        · next hmax =>
          split at h
          · exact nomatch h
          · cases h; simp [hmax]

end Calldata

/-! ### Operands -/

namespace Step

/-- The step is the call `op` and asks for call data of a negative size. -/
structure NegativeWindow (s : Step) (op : CallOp) : Prop where
  arity : op.layout.arity ≤ s.stack.length
  offset : (s.int? op.layout.offset).isSome
  size : ∃ n, s.int? op.layout.size = some n ∧ n < 0

/-- The step is a call that asks for call data of a negative size. -/
def Refused (s : Step) : Prop :=
  ∃ op, CallOp.ofName? s.op = some op ∧ s.NegativeWindow op

/-- The operands `o` of the call `op` are what the stack of `s` says, word by word: each of them
depends on its own words only, and is absent if these are. -/
structure Reads (s : Step) (op : CallOp) (o : CallOperands) : Prop where
  short : s.stack.length < op.layout.arity → o = {}
  target : op.layout.arity ≤ s.stack.length → o.target = op.layout.target.bind s.address?
  ownValue : op.layout.arity ≤ s.stack.length →
    ∀ place, op.layout.value = some place → o.value = (s.int? place).map Numeral.hex
  noValue : op.layout.arity ≤ s.stack.length → op.layout.value = none → o.value = some "0x0"
  input : op.layout.arity ≤ s.stack.length →
    Calldata.read s.memory (s.int? op.layout.offset) (s.int? op.layout.size) = .ok o.input
  input_eq_none_iff : op.layout.arity ≤ s.stack.length →
    (o.input = none ↔ s.int? op.layout.offset = none ∨ s.int? op.layout.size = none ∨
      ∃ n, s.int? op.layout.size = some n ∧ Calldata.maxBytes < n)

variable {s : Step} {op : CallOp}

theorem callOperands_of_negativeWindow (h : s.NegativeWindow op) :
    s.callOperands op = .error .badValue := by
  obtain ⟨o, ho⟩ := Option.isSome_iff_exists.mp h.offset
  obtain ⟨n, hn, hneg⟩ := h.size
  rw [callOperands]
  simp only [if_neg (Nat.not_lt.mpr h.arity), ho, hn, Calldata.read_of_negative hneg]
  rfl

theorem exists_callOperands (h : ¬ s.NegativeWindow op) : ∃ o, s.callOperands op = .ok o := by
  rw [callOperands]
  by_cases hshort : s.stack.length < op.layout.arity
  · exact ⟨{}, if_pos hshort⟩
  · have hread : ∀ o n, s.int? op.layout.offset = some o → s.int? op.layout.size = some n →
        0 ≤ n := by
      intro o n ho hn
      by_contra hneg
      exact h ⟨Nat.le_of_not_lt hshort, by rw [ho]; rfl, n, hn, Int.not_le.mp hneg⟩
    obtain ⟨data, hdata⟩ : ∃ data, Calldata.read s.memory (s.int? op.layout.offset)
        (s.int? op.layout.size) = .ok data := Calldata.exists_read hread
    simp only [if_neg hshort, hdata]
    exact ⟨_, rfl⟩

theorem reads_of_callOperands {o : CallOperands} (h : s.callOperands op = .ok o) :
    s.Reads op o := by
  rw [callOperands] at h
  by_cases hshort : s.stack.length < op.layout.arity
  · have hlong : ∀ {p : Prop}, op.layout.arity ≤ s.stack.length → p := fun hle =>
      absurd hshort (Nat.not_lt.mpr hle)
    simp only [if_pos hshort] at h
    cases h
    exact ⟨fun _ => rfl, hlong, hlong, hlong, hlong, hlong⟩
  · simp only [if_neg hshort] at h
    cases hdata : Calldata.read s.memory (s.int? op.layout.offset) (s.int? op.layout.size) with
    | error fault => rw [hdata] at h; exact nomatch h
    | ok data =>
      rw [hdata] at h
      cases h
      refine ⟨fun h => absurd h hshort, fun _ => rfl, fun _ place hplace => ?_, fun _ hplace => ?_,
        fun _ => hdata, fun _ => Calldata.eq_none_iff_of_read hdata⟩
      · simp only [hplace]
      · simp only [hplace]

end Step

/-- `f` is the one frame that the call `op` at position `i` opens, inside of the frame `parent` that
the call belongs to. -/
structure CallFrames.Opens (c : CallFrames) (i : Nat) (op : CallOp) (parent f : Frame) : Prop where
  mem : f ∈ c.frames
  kind : f.kind = .opened op
  startStep : f.startStep = i
  unique : ∀ g ∈ c.frames, g.isRoot = false → g.startStep = i → g = f
  parent_mem : parent ∈ c.frames
  parent_eq : f.parent = some parent.id
  owner : c.stepToFrame[i]? = some parent.id
  sender : f.sender = parent.target

/-! ### The pass -/

namespace Nesting

open FrameWalk

variable {steps : List Step} {tx : Transaction} {i : Nat} {s : Step} {w : FrameWalk}

theorem advance_of_refused (h : s.Refused) : w.advance s i = .error .badValue := by
  obtain ⟨op, hop, hneg⟩ := h
  rw [advance_of_call hop, Step.callOperands_of_negativeWindow hneg]
  rfl

theorem exists_advance (h : ¬ s.Refused) : ∃ w', w.advance s i = .ok w' := by
  cases hop : CallOp.ofName? s.op with
  | none => exact ⟨_, advance_of_other hop⟩
  | some op =>
    obtain ⟨o, ho⟩ := Step.exists_callOperands fun hneg => h ⟨op, hop, hneg⟩
    exact ⟨_, by rw [advance_of_call hop, ho]; rfl⟩

theorem run_cons {rest : List Step} :
    w.run i (s :: rest) = (w.advance s i).bind fun w' => w'.run (i + 1) rest := rfl

theorem run_of_not_refused {rest : List Step} (h : ∀ s ∈ rest, ¬ s.Refused) :
    ∃ w', w.run i rest = .ok w' := by
  induction rest generalizing w i with
  | nil => exact ⟨w, rfl⟩
  | cons s rest ih =>
    obtain ⟨w₁, hw₁⟩ := exists_advance (w := w) (i := i) (h s List.mem_cons_self)
    rw [run_cons, hw₁]
    exact ih fun s hs => h s (List.mem_cons_of_mem _ hs)

theorem run_of_refused {rest : List Step} (h : ∃ s ∈ rest, s.Refused) :
    w.run i rest = .error .badValue := by
  induction rest generalizing w i with
  | nil => exact absurd h (by simp)
  | cons s rest ih =>
    rw [run_cons]
    by_cases hs : s.Refused
    · rw [advance_of_refused hs]
      rfl
    · -- this step passes, so the refused one comes later
      obtain ⟨w₁, hw₁⟩ := exists_advance (w := w) (i := i) hs
      rw [hw₁]
      refine ih ?_
      obtain ⟨t, ht, hrefused⟩ := h
      rcases List.mem_cons.mp ht with rfl | ht
      · exact absurd hrefused hs
      · exact ⟨t, ht, hrefused⟩

theorem build_of_refused (h : ∃ s ∈ steps, s.Refused) :
    CallFrames.build steps tx = .error .badValue := by
  have hne : steps ≠ [] := by rintro rfl; exact absurd h (by simp)
  rw [build_of_ne_nil hne, run_of_refused h]
  rfl

theorem exists_build (h : ∀ s ∈ steps, ¬ s.Refused) : ∃ c, CallFrames.build steps tx = .ok c := by
  rcases eq_or_ne steps [] with rfl | hne
  · exact ⟨CallFrames.empty, rfl⟩
  · obtain ⟨w, hw⟩ := run_of_not_refused (w := start tx ((steps.length : Int) - 1)) (i := 0) h
    exact ⟨_, by rw [build_of_ne_nil hne, hw]; rfl⟩

theorem not_refused_of_build {c : CallFrames} (h : CallFrames.build steps tx = .ok c) :
    ∀ s ∈ steps, ¬ s.Refused := by
  intro s hs hrefused
  rw [build_of_refused ⟨s, hs, hrefused⟩] at h
  exact nomatch h

/-- Where reconstruction returns, the operands of every call have been decoded. -/
theorem reads_operandsAt {c : CallFrames} {op : CallOp} (h : CallFrames.build steps tx = .ok c)
    (hs : steps[i]? = some s) (hop : CallOp.ofName? s.op = some op) :
    s.Reads op (operandsAt steps i) := by
  have hnot := not_refused_of_build h s (List.mem_of_getElem? hs)
  obtain ⟨o, ho⟩ := Step.exists_callOperands fun hneg => hnot ⟨op, hop, hneg⟩
  have hdecoded : operandsAt steps i = o := by
    rw [operandsAt, hs, Option.bind_some, hop, Option.bind_some, ho]
    rfl
  rw [hdecoded]
  exact Step.reads_of_callOperands ho

theorem reads_record {c : CallFrames} {op : CallOp} (h : CallFrames.build steps tx = .ok c)
    (hs : steps[i]? = some s) (hop : CallOp.ofName? s.op = some op) :
    s.Reads op ⟨(record steps tx (some i)).target, (record steps tx (some i)).value,
      (record steps tx (some i)).input⟩ := by
  rw [operands_record_some hs hop]
  exact reads_operandsAt h hs hop

variable (steps tx) in
theorem build_eq_error_iff :
    CallFrames.build steps tx = .error .badValue ↔ ∃ s ∈ steps, s.Refused := by
  refine ⟨fun h => ?_, build_of_refused⟩
  by_contra hnone
  obtain ⟨c, hc⟩ : ∃ c, CallFrames.build steps tx = .ok c :=
    exists_build fun s hs hrefused => hnone ⟨s, hs, hrefused⟩
  rw [hc] at h
  exact nomatch h

/-- Frames of calls are told apart by their first steps. -/
theorem eq_of_startStep_eq {c : CallFrames} (h : CallFrames.build steps tx = .ok c) {f g : Frame}
    (hf : f ∈ c.frames) (hg : g ∈ c.frames) (hfroot : f.isRoot = false)
    (hgroot : g.isRoot = false) (hstart : f.startStep = g.startStep) : f = g := by
  obtain rfl := build_eq_reconstruction_of_mem h hf
  have hcall : ∀ f ∈ (reconstruction steps tx).frames, f.isRoot = false →
      ∃ p, (callAt? steps p).isSome ∧ f = record steps tx (some p) := by
    intro f hf hroot
    rcases eq_record_of_mem_frames hf with rfl | ⟨p, -, hp, rfl⟩
    · rw [Frame.isRoot, parent_record_none] at hroot
      exact nomatch hroot
    · exact ⟨p, hp, rfl⟩
  obtain ⟨p, hp, rfl⟩ := hcall f hf hfroot
  obtain ⟨q, hq, rfl⟩ := hcall g hg hgroot
  rw [startStep_record_some hp, startStep_record_some hq, Int.ofNat_inj] at hstart
  rw [hstart]

/-- Every call opens one frame inside of the frame that it belongs to. -/
theorem opens_of_build {c : CallFrames} {op : CallOp} (h : CallFrames.build steps tx = .ok c)
    (hs : steps[i]? = some s) (hop : CallOp.ofName? s.op = some op) :
    ∃ f parent, c.Opens i op parent f ∧ s.Reads op ⟨f.target, f.value, f.input⟩ ∧
      f.selector = if op.creates then none else f.input.bind Calldata.selector? := by
  have hcall : (callAt? steps i).isSome := by
    rw [callAt?_of_getElem? hs, hop]
    rfl
  have hne : steps ≠ [] := by rintro rfl; exact nomatch hs
  have hlt := lt_length_of_callAt? hcall
  have howner : owner steps i ∈ openers steps steps.length := owner_mem_openers (Nat.le_of_lt hlt)
  have hmem : record steps tx (some i) ∈ (reconstruction steps tx).frames :=
    record_mem_frames (some_mem_openers hcall)
  have hstart : (record steps tx (some i)).startStep = i := startStep_record_some hcall
  have hparent : (record steps tx (some i)).parent = some (record steps tx (owner steps i)).id := by
    rw [parent_record_some hcall, id_record howner]
  have hroot : (record steps tx (some i)).isRoot = false := by rw [Frame.isRoot, hparent]; rfl
  have hreads := reads_record h hs hop
  obtain rfl := build_eq_reconstruction h hne
  exact ⟨record steps tx (some i), record steps tx (owner steps i),
    { mem := hmem
      kind := kind_record_some hs hop
      startStep := hstart
      unique := fun g hg hgroot hgstart =>
        eq_of_startStep_eq h hg hmem hgroot hroot (hgstart.trans hstart.symm)
      parent_mem := record_mem_frames howner
      parent_eq := hparent
      owner := by rw [getElem?_stepToFrame hlt, id_record howner]
      sender := sender_record_some hcall },
    hreads, selector_record_some hs hop⟩

/-- The frame of a call has the operands that the stack of the call says. -/
theorem reads_of_build {c : CallFrames} {op : CallOp} (h : CallFrames.build steps tx = .ok c)
    (hs : steps[i]? = some s) (hop : CallOp.ofName? s.op = some op) :
    ∃ f ∈ c.frames, f.startStep = i ∧ f.kind = .opened op ∧
      s.Reads op ⟨f.target, f.value, f.input⟩ ∧
      f.selector = if op.creates then none else f.input.bind Calldata.selector? := by
  obtain ⟨f, _, hopens, hreads, hselector⟩ := opens_of_build h hs hop
  exact ⟨f, hopens.mem, hopens.startStep, hopens.kind, hreads, hselector⟩

/-- **Reconstruction fails at negative sizes and nowhere else.** Whatever the words of the steps
are, it fails exactly if a call asks for call data of a negative size, and otherwise the frame of
each call has its operands, each absent if its own words cannot be read. -/
theorem build_fails_iff_refused (steps : List Step) (tx : Transaction) :
    (CallFrames.build steps tx = .error .badValue ↔ ∃ s ∈ steps, s.Refused) ∧
      ((∃ c, CallFrames.build steps tx = .ok c) ↔ ∀ s ∈ steps, ¬ s.Refused) ∧
      ∀ c, CallFrames.build steps tx = .ok c →
        ∀ (i : Nat) s op, steps[i]? = some s → CallOp.ofName? s.op = some op →
          ∃ f ∈ c.frames, f.startStep = i ∧ f.kind = .opened op ∧
            s.Reads op ⟨f.target, f.value, f.input⟩ ∧
            f.selector = if op.creates then none else f.input.bind Calldata.selector? :=
  ⟨build_eq_error_iff steps tx, ⟨fun ⟨_, hc⟩ => not_refused_of_build hc, exists_build⟩,
    fun _ hbuild _ _ _ hs hop => reads_of_build hbuild hs hop⟩

/-- A call whose stack holds `size` where the size of the call data belongs. -/
def callWithSize (size : String) : Step :=
  ⟨0, 0, "CALL", 0, 3, 1, ["0xc350", "0x33", "0x1", "0x0", size, "0x0", "0x0"], []⟩

/-- A size that is not a number leaves one field of the frame empty. -/
theorem build_fails_iff_refused_unreadable :
    ∃ c, CallFrames.build [callWithSize "zz"] {} = .ok c ∧ ∃ f ∈ c.frames, f.startStep = 0 ∧
      f.kind = .opened .call ∧ (callWithSize "zz").Reads .call ⟨f.target, f.value, f.input⟩ ∧
      f.selector = f.input.bind Calldata.selector? := by
  obtain ⟨-, -, hreads⟩ := build_fails_iff_refused [callWithSize "zz"] {}
  exact ⟨_, rfl, hreads _ rfl 0 _ .call rfl rfl⟩

/-- A negative size leaves no frames at all. -/
theorem build_negative_size : CallFrames.build [callWithSize "-1"] {} = .error .badValue :=
  rfl

end Nesting

end TraceAudit
