import Mathlib.Data.List.Forall2
import TraceAudit.Proofs.Frame.Refusal
import TraceAudit.Proofs.Word
import TraceAudit.Step.StorageWrite

/-!
# Steps in normal form

Two traces may differ in nothing but the spelling of their words. `Step.Respelled` says so of two
steps, and `Step.normal` puts a step into normal form by writing every word with its canonical
digits. Steps that are respelled have the same normal form (`normal_eq_of_respelled`), so it is
enough to show that nothing of a step with canonical words changes when it is put into normal form.
This module does so for what is read of a single step and for the reconstruction of frames
(`build_map_normal`).
-/

namespace TraceAudit

/-- Two canonical words that denote the same integer. -/
structure Word.Respelled (a b : String) : Prop where
  left : Word.isCanonical a
  right : Word.isCanonical b
  toInt? : Word.toInt? a = Word.toInt? b

namespace Step

/-- The steps are equal but for the spelling of their words, and all their words are canonical. -/
structure Respelled (s t : Step) : Prop where
  index : s.index = t.index
  pc : s.pc = t.pc
  op : s.op = t.op
  gas : s.gas = t.gas
  gasCost : s.gasCost = t.gasCost
  depth : s.depth = t.depth
  stack : List.Forall₂ Word.Respelled s.stack t.stack
  memory : List.Forall₂ Word.Respelled s.memory t.memory

/-- All words of the step are canonical. -/
structure Canonical (s : Step) : Prop where
  stack : ∀ w ∈ s.stack, Word.isCanonical w
  memory : ∀ w ∈ s.memory, Word.isCanonical w

/-- The step with its words in normal form. -/
def normal (s : Step) : Step :=
  { s with stack := s.stack.map Word.normalize, memory := s.memory.map Word.normalize }

end Step

/-! ### One normal form -/

/-- Lists with a relation that tells something of its left side. -/
theorem forall_left_of_forall₂ {α β : Type} {R : α → β → Prop} {p : α → Prop} {as : List α}
    {bs : List β} (h : List.Forall₂ R as bs) (hp : ∀ a b, R a b → p a) : ∀ a ∈ as, p a :=
  (List.forall₂_and_left as bs).mp (h.imp fun a b hab => ⟨hp a b hab, hab⟩) |>.1

theorem map_eq_of_forall₂ {α β γ : Type} {R : α → β → Prop} {f : α → γ} {g : β → γ} {as : List α}
    {bs : List β} (h : List.Forall₂ R as bs) (hfg : ∀ a b, R a b → f a = g b) :
    as.map f = bs.map g := by
  have heq : List.Forall₂ Eq (as.map f) (bs.map g) :=
    List.forall₂_map_left_iff.mpr (List.forall₂_map_right_iff.mpr (h.imp hfg))
  rwa [List.forall₂_eq_eq_eq] at heq

theorem Word.Respelled.symm {a b : String} (h : Word.Respelled a b) : Word.Respelled b a :=
  ⟨h.right, h.left, h.toInt?.symm⟩

theorem Word.Respelled.normalize_eq {a b : String} (h : Word.Respelled a b) :
    Word.normalize a = Word.normalize b :=
  Word.normalize_eq_of_toInt?_eq h.left h.right h.toInt?

namespace Step

variable {s t : Step}

theorem Respelled.canonical_left (h : s.Respelled t) : s.Canonical where
  stack := forall_left_of_forall₂ h.stack fun _ _ hab => hab.left
  memory := forall_left_of_forall₂ h.memory fun _ _ hab => hab.left

theorem Respelled.symm (h : s.Respelled t) : t.Respelled s where
  index := h.index.symm
  pc := h.pc.symm
  op := h.op.symm
  gas := h.gas.symm
  gasCost := h.gasCost.symm
  depth := h.depth.symm
  stack := (h.stack.imp fun _ _ hab => hab.symm).flip
  memory := (h.memory.imp fun _ _ hab => hab.symm).flip

/-- Steps that are respelled have one normal form. -/
theorem normal_eq_of_respelled (h : s.Respelled t) : s.normal = t.normal := by
  obtain ⟨hindex, hpc, hop, hgas, hgasCost, hdepth, hstack, hmemory⟩ := h
  have hstack := map_eq_of_forall₂ hstack fun _ _ hab => hab.normalize_eq
  have hmemory := map_eq_of_forall₂ hmemory fun _ _ hab => hab.normalize_eq
  rw [normal, normal, hindex, hpc, hop, hgas, hgasCost, hdepth, hstack, hmemory]

/-! ### Readings of a step -/

@[simp] theorem index_normal (s : Step) : s.normal.index = s.index :=
  rfl

@[simp] theorem op_normal (s : Step) : s.normal.op = s.op :=
  rfl

@[simp] theorem isArithmetic_normal (s : Step) : s.normal.isArithmetic = s.isArithmetic :=
  rfl

@[simp] theorem isExternalCall_normal (s : Step) : s.normal.isExternalCall = s.isExternalCall :=
  rfl

@[simp] theorem isAbnormalHalt_normal (s : Step) : s.normal.isAbnormalHalt = s.isAbnormalHalt :=
  rfl

theorem word?_normal (s : Step) (place : Nat) :
    s.normal.word? place = (s.word? place).map Word.normalize :=
  List.getElem?_map

theorem Canonical.of_word? (h : s.Canonical) {place : Nat} {w : String}
    (hw : s.word? place = some w) : Word.isCanonical w :=
  h.stack w (List.mem_of_getElem? hw)

theorem int?_normal (h : s.Canonical) (place : Nat) : s.normal.int? place = s.int? place := by
  rw [int?, word?_normal, int?]
  cases hw : s.word? place with
  | none => rfl
  | some w =>
    rw [Option.map_some, Option.bind_some, Option.bind_some, Word.toInt?_normalize (h.of_word? hw)]

theorem address?_normal (h : s.Canonical) (place : Nat) :
    s.normal.address? place = s.address? place := by
  rw [address?, word?_normal, address?]
  cases hw : s.word? place with
  | none => rfl
  | some w =>
    have haddress := Word.address?_normalize (h.of_word? hw)
    rw [Option.map_some, Option.bind_some, Option.bind_some, haddress]

theorem storageWrite?_normal (h : s.Canonical) : s.normal.storageWrite? = s.storageWrite? := by
  rw [storageWrite?, storageWrite?]
  refine if_congr Iff.rfl ?_ rfl
  cases hstack : s.stack with
  | nil => simp only [normal, hstack, List.map_nil]
  | cons slot rest =>
    cases rest with
    | nil => simp only [normal, hstack, List.map_cons, List.map_nil]
    | cons value rest =>
      have hslot := Word.normalize_normalize (h.stack slot (by simp [hstack]))
      have hvalue := Word.normalize_normalize (h.stack value (by simp [hstack]))
      simp only [normal, hstack, List.map_cons, hslot, hvalue]

theorem flatten_memory_normal (h : s.Canonical) :
    Memory.flatten s.normal.memory = Memory.flatten s.memory := by
  rw [Memory.flatten, Memory.flatten, normal, List.flatMap_map]
  refine List.flatMap_congr fun w hw => ?_
  rw [Memory.wordBytes, Memory.wordBytes?_normalize (h.memory w hw), Memory.wordBytes]

/-- Canonical words can be read, so there is nothing to remark on them. -/
theorem unreadable_memory (h : s.Canonical) : Memory.unreadable s.memory = [] :=
  Memory.unreadable_eq_nil fun w hw => Memory.isSome_wordBytes? (h.memory w hw)

theorem unreadable_memory_normal (h : s.Canonical) : Memory.unreadable s.normal.memory = [] := by
  refine Memory.unreadable_eq_nil fun w hw => ?_
  obtain ⟨v, hv, rfl⟩ := List.mem_map.mp hw
  rw [Memory.wordBytes?_normalize (h.memory v hv)]
  exact Memory.isSome_wordBytes? (h.memory v hv)

end Step

/-! ### Reconstruction -/

theorem Calldata.read_congr {memory memory' : List String} {offset size : Option Int}
    (h : Memory.flatten memory = Memory.flatten memory') :
    read memory offset size = read memory' offset size := by
  rw [read.eq_def, read.eq_def, h]

namespace Step

variable {s : Step}

theorem callOperands_normal (h : s.Canonical) (op : CallOp) :
    s.normal.callOperands op = s.callOperands op := by
  have hlength : s.normal.stack.length = s.stack.length := List.length_map _
  have haddress : s.normal.address? = s.address? := funext (address?_normal h)
  rw [callOperands, callOperands]
  simp only [hlength, haddress, int?_normal h, Calldata.read_congr (flatten_memory_normal h)]

end Step

namespace Nesting

open FrameWalk

variable {s : Step} {steps : List Step} {w : FrameWalk} {i : Nat}

theorem leave_normal (frames : List Frame) (current : Scope) (outer : List Scope) :
    leave s.normal i frames current outer = leave s i frames current outer := by
  induction outer generalizing frames current with
  | nil => rfl
  | cons up outer ih =>
    rw [leave, leave, ih]
    rfl

theorem arrive_normal : w.arrive s.normal i = w.arrive s i := by
  rw [arrive, leave_normal, arrive]
  rfl

theorem advance_normal (h : s.Canonical) : w.advance s.normal i = w.advance s i := by
  cases hop : CallOp.ofName? s.op with
  | none =>
    have hnormal : CallOp.ofName? s.normal.op = none := hop
    rw [advance_of_other hop, advance_of_other hnormal, arrive_normal]
    rfl
  | some op =>
    have hnormal : CallOp.ofName? s.normal.op = some op := hop
    rw [advance_of_call hop, advance_of_call hnormal, arrive_normal, Step.callOperands_normal h]
    rfl

/-- **The pass does not see how words are spelled.** -/
theorem run_map_normal (h : ∀ s ∈ steps, s.Canonical) :
    w.run i (steps.map Step.normal) = w.run i steps := by
  induction steps generalizing w i with
  | nil => rfl
  | cons s steps ih =>
    have hrest : ∀ t ∈ steps, t.Canonical := fun t ht => h t (List.mem_cons_of_mem s ht)
    rw [List.map_cons, run_cons, run_cons, advance_normal (h s List.mem_cons_self)]
    exact congrArg _ (funext fun w' => ih hrest)

theorem build_map_normal (h : ∀ s ∈ steps, s.Canonical) (tx : Transaction) :
    CallFrames.build (steps.map Step.normal) tx = CallFrames.build steps tx := by
  rcases eq_or_ne steps [] with rfl | hne
  · rfl
  · have hmap : steps.map Step.normal ≠ [] := by simpa using hne
    rw [build_of_ne_nil hne, build_of_ne_nil hmap, List.length_map, run_map_normal h]

/-- Reconstruction has nothing to remark on words that can be read. -/
theorem unreadableWords_eq_nil (h : ∀ s ∈ steps, Memory.unreadable s.memory = []) :
    CallFrames.unreadableWords steps = [] := by
  refine List.flatMap_eq_nil_iff.mpr fun s hs => ?_
  split
  · rw [h s hs, ite_self]
  · rfl

end Nesting

end TraceAudit
