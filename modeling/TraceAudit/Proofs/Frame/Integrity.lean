import TraceAudit.Proofs.Analysis
import TraceAudit.Proofs.Frame.Meaning
import TraceAudit.Proofs.Frame.Validation

/-!
# Integrity of the frame tree

`Integrity` lists what holds of the frames of every reconstruction: they form a tree that is
numbered in order, children and parents agree, depths follow the tree, and the steps of the frames
are laminar, which means that a frame lies inside of its parent and siblings do not meet. The owner
of a step is the deepest frame around it.

All of it is read off `Nesting`. In particular the validation of `Frame/Validate` has nothing to
report (`validate_eq_nil`), since what it checks is a part of the integrity.
-/

namespace TraceAudit

open Nesting

/-- The step at `i` is behind the start of the frame and not behind its end. -/
def Frame.Holds (f : Frame) (i : Nat) : Prop :=
  f.startStep < i ∧ (i : Int) ≤ f.endStep

/-- Among the frames that hold the step at `i`, the frame `f` is the deepest; if there are none, it
is the first frame. -/
def Frame.IsDeepest (frames : List Frame) (f : Frame) (i : Nat) : Prop :=
  (f.Holds i ∧ ∀ g ∈ frames, g.Holds i → g ≠ f → g.depth < f.depth) ∨
    (f.id = 0 ∧ ∀ g ∈ frames, ¬ g.Holds i)

/-- The frames of a trace with `n` steps are a tree whose steps nest like the tree. -/
structure Integrity (n : Nat) (c : CallFrames) : Prop where
  owners_size : c.stepToFrame.size = n
  ids : c.frames.map Frame.id = (List.range c.frames.length).map Int.ofNat
  parent_eq_none_iff : ∀ f ∈ c.frames, f.parent = none ↔ f.id = 0
  parent_lt : ∀ f ∈ c.frames, ∀ p, f.parent = some p → ∃ g ∈ c.frames, g.id = p ∧ p < f.id
  mem_children_iff : ∀ f ∈ c.frames, ∀ k,
    k ∈ f.children ↔ ∃ g ∈ c.frames, g.id = k ∧ g.parent = some f.id
  children_increasing : ∀ f ∈ c.frames, f.children.Pairwise (· < ·)
  depth : ∀ f ∈ c.frames, ∀ g ∈ c.frames, g.parent = some f.id → g.depth = f.depth + 1
  range : ∀ f ∈ c.frames,
    0 ≤ f.startStep ∧ f.startStep ≤ f.endStep ∧ f.endStep ≤ (n : Int) - 1
  inside : ∀ f ∈ c.frames, ∀ g ∈ c.frames, g.parent = some f.id →
    f.startStep ≤ g.startStep ∧ g.endStep ≤ f.endStep
  siblings : ∀ f ∈ c.frames, ∀ g ∈ c.frames, f.parent = g.parent → f.id < g.id →
    f.endStep < g.startStep
  owner : ∀ i < n, ∃ f ∈ c.frames, c.stepToFrame[i]? = some f.id ∧ f.IsDeepest c.frames i
  settled : ∀ f ∈ c.frames, f.status ≠ .unknown

/-! ### Validation -/

section Validation

variable {n : Nat} {c : CallFrames}

theorem Integrity.ids_increasing (h : Integrity n c) :
    (c.frames.map Frame.id).Pairwise (· < ·) := by
  rw [h.ids, List.pairwise_map]
  exact List.pairwise_lt_range.imp Int.ofNat_lt.mpr

theorem Integrity.ids_nodup (h : Integrity n c) : (c.frames.map Frame.id).Nodup :=
  h.ids_increasing.imp Int.ne_of_lt

theorem Integrity.sound (h : Integrity n c) {f : Frame} (hf : f ∈ c.frames) {last : Option Int}
    (hlast : ∀ l ∈ last, (n : Int) - 1 ≤ l) : f.Sound c.frames last where
  parent p hp := by
    obtain ⟨g, hg, rfl, -⟩ := h.parent_lt f hf p hp
    exact List.mem_map_of_mem hg
  children k hk := by
    obtain ⟨g, hg, rfl, -⟩ := (h.mem_children_iff f hf k).mp hk
    exact List.mem_map_of_mem hg
  depth p hp g hg := by
    obtain rfl := hg.id_eq
    exact h.depth g hg.mem f hf hp
  start := (h.range f hf).1
  forward := (h.range f hf).2.1
  inside l hl := (h.range f hf).2.2.trans (hlast l hl)

/-- **Validation has nothing to report** on frames with integrity, whether or not it is told the
last step. -/
theorem Integrity.validate_eq_nil (h : Integrity n c) {last : Option Int}
    (hlast : ∀ l ∈ last, (n : Int) - 1 ≤ l) : Frame.validate c.frames last = [] :=
  Frame.validate_eq_nil_iff.mpr fun _ hf => h.sound hf hlast

end Validation

/-! ### Reconstruction -/

namespace Nesting

variable {steps : List Step} {tx : Transaction} {p q i : Nat}

/-! ### Children -/

variable (steps tx) in
theorem mem_children_record_iff {o : Option Nat} (ho : o ∈ openers steps steps.length) (k : Int) :
    k ∈ (record steps tx o).children ↔
      ∃ g ∈ (reconstruction steps tx).frames, g.id = k ∧
        g.parent = some (record steps tx o).id := by
  rw [children_record]
  constructor
  · intro hk
    obtain ⟨q, hq, rfl⟩ := List.mem_map.mp hk
    obtain ⟨hq, howner⟩ := List.mem_filter.mp hq
    have hcall := (mem_calls_iff.mp hq).2
    exact ⟨record steps tx (some q), record_mem_frames (some_mem_openers hcall),
      id_record_some hcall, (parent_eq_some_id_iff hcall ho).mpr (of_decide_eq_true howner)⟩
  · rintro ⟨g, hg, rfl, hparent⟩
    obtain ⟨q, hq, howner, rfl⟩ := exists_call_of_parent ho hg hparent
    refine List.mem_map.mpr ⟨q, List.mem_filter.mpr ⟨?_, decide_eq_true howner⟩, ?_⟩
    · exact mem_calls_iff.mpr ⟨lt_length_of_callAt? hq, hq⟩
    · exact (id_record_some hq).symm

variable (steps tx) in
theorem children_record_increasing (o : Option Nat) :
    (record steps tx o).children.Pairwise (· < ·) := by
  rw [children_record, List.pairwise_map]
  refine List.Pairwise.filter _ ((calls_pairwise steps steps.length).imp_of_mem ?_)
  intro a b ha hb hab
  have ha := (mem_calls_iff.mp ha).2
  have hb := (mem_calls_iff.mp hb).2
  exact Int.ofNat_lt.mpr ((idOf_some_lt_iff ha hb).mpr hab)

/-! ### Steps -/

variable (steps tx) in
theorem depth_record {o : Option Nat} (ho : o ∈ openers steps steps.length) :
    (record steps tx o).depth = (scopeOf steps tx o).depth := by
  cases o with
  | none => exact depth_record_none
  | some p => exact depth_record_some (some_mem_openers_iff.mp ho).2

/-- The frames of a call and of what encloses it nest. -/
theorem inside_owner (hne : steps ≠ []) (hq : (callAt? steps q).isSome) :
    (record steps tx (owner steps q)).startStep ≤ q ∧
      (record steps tx (some q)).endStep ≤ (record steps tx (owner steps q)).endStep := by
  cases ho : owner steps q with
  | none =>
    rw [startStep_record_none, endStep_record_none_of_ne_nil hne]
    exact ⟨by omega, (endStep_record_bounds tx hq).2⟩
  | some p =>
    have henc := encloses_of_owner ho
    have := henc.2.1
    rw [startStep_record_some henc.1]
    exact ⟨by omega, endStep_le_of_encloses henc hq⟩

/-- Of two calls with the same owner, the frame of the earlier one ends before the later one. -/
theorem endStep_lt_of_owner_eq (hp : (callAt? steps p).isSome) (hq : (callAt? steps q).isSome)
    (howner : owner steps p = owner steps q) (hlt : p < q) :
    (record steps tx (some p)).endStep < q := by
  by_contra hle
  have henc : Encloses steps p q :=
    (encloses_iff_le_endStep tx hp (lt_length_of_callAt? hq)).mpr ⟨hlt, Int.not_lt.mp hle⟩
  -- the owner of `q` stands at or behind `p`, but that of `p` stands before `p`
  cases ho : owner steps q with
  | none => exact owner_eq_none_iff.mp ho p henc
  | some r =>
    have hpr := (owner_eq_some_iff.mp ho).2 p henc
    have hrp := owner_lt (howner.trans ho)
    omega

theorem holds_record_some_iff (hp : (callAt? steps p).isSome) (hi : i < steps.length) :
    (record steps tx (some p)).Holds i ↔ Encloses steps p i := by
  rw [Frame.Holds, startStep_record_some hp, encloses_iff_le_endStep tx hp hi, Int.ofNat_lt]

theorem isDeepest_of_owner_some (hi : i < steps.length) (ho : owner steps i = some p) :
    (record steps tx (some p)).IsDeepest (reconstruction steps tx).frames i := by
  obtain ⟨henc, hlast⟩ := owner_eq_some_iff.mp ho
  refine .inl ⟨(holds_record_some_iff henc.1 hi).mpr henc, fun g hg hholds hgne => ?_⟩
  rw [depth_record_some henc.1]
  rcases eq_record_of_mem_frames hg with rfl | ⟨q, -, hq, rfl⟩
  · rw [depth_record_none]
    omega
  · have hqi := (holds_record_some_iff hq hi).mp hholds
    have hqp : q < p := Nat.lt_of_le_of_ne (hlast q hqi) fun heq => hgne (heq ▸ rfl)
    have hlen := length_enclosing_lt (hqi.chain henc hqp)
    rw [depth_record_some hq]
    omega

theorem isDeepest_of_owner_none (hi : i < steps.length) (ho : owner steps i = none) :
    (record steps tx none).IsDeepest (reconstruction steps tx).frames i := by
  have hnone : ∀ g ∈ (reconstruction steps tx).frames, g.Holds i → g = record steps tx none := by
    intro g hg hholds
    rcases eq_record_of_mem_frames hg with rfl | ⟨q, -, hq, rfl⟩
    · rfl
    · exact absurd ((holds_record_some_iff hq hi).mp hholds) (owner_eq_none_iff.mp ho q)
  by_cases hroot : (record steps tx none).Holds i
  · exact .inl ⟨hroot, fun g hg hholds hgne => absurd (hnone g hg hholds) hgne⟩
  · exact .inr ⟨id_record_none steps tx, fun g hg hholds => hroot (hnone g hg hholds ▸ hholds)⟩

/-! ### The tree -/

theorem integrity_reconstruction (hne : steps ≠ []) :
    Integrity steps.length (reconstruction steps tx) where
  owners_size := size_stepToFrame steps tx
  ids := by
    rw [ids_reconstruction, idOf_openers, reconstruction, List.length_map]
  parent_eq_none_iff f hf := by
    rcases eq_record_of_mem_frames hf with rfl | ⟨p, -, hp, rfl⟩
    · simp only [parent_record_none, id_record_none]
    · rw [parent_record_some hp, id_record_some hp, idOf]
      simp only [reduceCtorEq, false_iff]
      omega
  parent_lt f hf k hk := by
    rcases eq_record_of_mem_frames hf with rfl | ⟨p, hlt, hp, rfl⟩
    · rw [parent_record_none] at hk
      cases hk
    · rw [parent_record_some hp] at hk
      obtain rfl := Option.some_inj.mp hk
      have howner : owner steps p ∈ openers steps steps.length :=
        owner_mem_openers (Nat.le_of_lt hlt)
      refine ⟨_, record_mem_frames howner, id_record howner, ?_⟩
      rw [id_record_some hp]
      exact Int.ofNat_lt.mpr (idOf_owner_lt steps p)
  mem_children_iff f hf k := by
    obtain ⟨o, ho, rfl⟩ := mem_frames_iff.mp hf
    exact mem_children_record_iff steps tx ho k
  children_increasing f hf := by
    obtain ⟨o, -, rfl⟩ := mem_frames_iff.mp hf
    exact children_record_increasing steps tx o
  depth f hf g hg hparent := by
    obtain ⟨o, ho, rfl⟩ := mem_frames_iff.mp hf
    obtain ⟨q, hq, rfl, rfl⟩ := exists_call_of_parent ho hg hparent
    rw [depth_record_some hq, depth_record steps tx ho, depth_scopeOf_owner]
  range f hf := by
    rcases eq_record_of_mem_frames hf with rfl | ⟨p, -, hp, rfl⟩
    · have := List.length_pos_iff.mpr hne
      rw [startStep_record_none, endStep_record_none_of_ne_nil hne]
      omega
    · have := endStep_record_bounds tx hp
      rw [startStep_record_some hp]
      omega
  inside f hf g hg hparent := by
    obtain ⟨o, ho, rfl⟩ := mem_frames_iff.mp hf
    obtain ⟨q, hq, rfl, rfl⟩ := exists_call_of_parent ho hg hparent
    rw [startStep_record_some hq]
    exact inside_owner hne hq
  siblings f hf g hg hparent hlt := by
    rcases eq_record_of_mem_frames hf with rfl | ⟨p, -, hp, rfl⟩ <;>
      rcases eq_record_of_mem_frames hg with rfl | ⟨q, -, hq, rfl⟩
    · exact absurd hlt (Int.lt_irrefl _)
    · rw [parent_record_none, parent_record_some hq] at hparent
      cases hparent
    · rw [parent_record_none, parent_record_some hp] at hparent
      cases hparent
    · have howner : owner steps p ∈ openers steps steps.length :=
        owner_mem_openers (Nat.le_of_lt (lt_length_of_callAt? hp))
      have hid : (record steps tx (owner steps p)).id = idOf steps (owner steps p) :=
        id_record howner
      rw [parent_record_some hp, ← hid, eq_comm, parent_eq_some_id_iff hq howner] at hparent
      rw [id_record_some hp, id_record_some hq, Int.ofNat_lt, idOf_some_lt_iff hp hq] at hlt
      rw [startStep_record_some hq]
      exact endStep_lt_of_owner_eq hp hq hparent.symm hlt
  owner i hi := by
    have howner : owner steps i ∈ openers steps steps.length :=
      owner_mem_openers (Nat.le_of_lt hi)
    refine ⟨_, record_mem_frames howner, ?_, ?_⟩
    · rw [getElem?_stepToFrame hi, id_record howner]
    · cases ho : owner steps i with
      | none => exact isDeepest_of_owner_none hi ho
      | some p => exact isDeepest_of_owner_some hi ho
  settled f hf := by
    obtain ⟨o, ho, rfl⟩ := mem_frames_iff.mp hf
    exact settled_record ho

theorem integrity_empty : Integrity 0 CallFrames.empty := by
  constructor <;> simp [CallFrames.empty]

/-- Every reconstruction that returns has integrity. -/
theorem integrity_of_build {c : CallFrames} (h : CallFrames.build steps tx = .ok c) :
    Integrity steps.length c := by
  rcases eq_or_ne steps [] with rfl | hne
  · cases h
    exact integrity_empty
  · rw [build_eq_reconstruction h hne]
    exact integrity_reconstruction hne

/-- The frames of an analysis have no issues, whether frames were asked for or not. -/
theorem frameIssues_eq_nil_of_analyze {r : AnalysisRequest} {report : Report}
    (h : analyze r = .ok report) : report.frameIssues = [] := by
  obtain ⟨steps, tx, callFrames, sources, merged, notes, -, -, hframes, -, -, rfl⟩ :=
    exists_of_analyze h
  have hlast : ∀ l ∈ (if steps.isEmpty then none else some ((steps.length : Int) - 1) : Option Int),
      (steps.length : Int) - 1 ≤ l := by
    intro l hl
    split at hl
    · exact nomatch hl
    · rw [Option.some_inj.mp hl]
  rcases eq_none_or_build_of_framesOf hframes with rfl | ⟨c, rfl, hbuild⟩
  · rfl
  · exact (integrity_of_build hbuild).validate_eq_nil hlast

/-- **The integrity of frame trees.** Every reconstruction that returns has integrity, validation
has nothing to report on it, and so no report of an analysis names an issue. -/
theorem integrity_and_no_issues :
    (∀ steps tx c, CallFrames.build steps tx = .ok c →
      Integrity steps.length c ∧
        Frame.validate c.frames (some ((steps.length : Int) - 1)) = []) ∧
      ∀ r report, analyze r = .ok report → report.frameIssues = [] := by
  refine ⟨fun steps tx c hbuild => ?_, fun r report h => frameIssues_eq_nil_of_analyze h⟩
  have hintegrity := integrity_of_build hbuild
  refine ⟨hintegrity, hintegrity.validate_eq_nil fun l hl => ?_⟩
  rw [Option.some_inj.mp hl]

theorem integrity_and_no_issues_jumpingTrace :
    (∃ c, CallFrames.build jumpingTrace {} = .ok c ∧ Integrity jumpingTrace.length c ∧
      Frame.validate c.frames (some ((jumpingTrace.length : Int) - 1)) = []) ∧
      ∃ report, analyze { trace := .entries (jumpingTrace.map .step) } = .ok report ∧
        report.frameIssues = [] := by
  obtain ⟨htree, hissues⟩ := integrity_and_no_issues
  have hreturns : (analyze { trace := .entries (jumpingTrace.map .step) }).toOption.any
      fun _ => true := by decide +kernel
  obtain ⟨report, hreport, -⟩ := exists_of_any_toOption hreturns
  exact ⟨⟨_, rfl, htree jumpingTrace {} _ rfl⟩, report, hreport, hissues _ report hreport⟩

end Nesting

end TraceAudit
