import Mathlib.Data.List.Basic
import TraceAudit.Finding.Basic
import TraceAudit.Frame.Basic
import TraceAudit.Step.Record
import TraceAudit.Step.StorageWrite

/-!
# What evidence refers to

Evidence names steps and frames by number, in fields that tell by their names what their numbers
mean and that stand at various depths. `Fields.stepNumbers` and `Fields.frameIds` gather these
numbers wherever they stand.

`Fields.RefersTo` says that the numbers mean what they seem to mean: each is the number of a step or
the id of a frame that exists, all steps belong to the frame that the evidence names, and the nested
frames are the children of that frame. Evidence may leave the frame away only where the fields for
its steps (`ownedNames`) are missing, too.
-/

namespace TraceAudit

/-! ### Numbers in evidence -/

namespace Value

/-- The integers that a value is or lists. -/
def ints : Value → List Int
  | int n => [n]
  | list items => items.filterMap fun
    | int n => some n
    | _ => none
  | _ => []

mutual

/-- The integers in fields with one of the given names, at any depth of a value. -/
def intsUnder (names : List String) : Value → List Int
  | list items => intsUnderItems names items
  | object fields => intsUnderFields names fields
  | _ => []

/-- The integers in fields with one of the given names, at any depth of the items of a list. -/
def intsUnderItems (names : List String) : List Value → List Int
  | [] => []
  | v :: rest => intsUnder names v ++ intsUnderItems names rest

/-- The integers in fields with one of the given names, at any depth of the fields of an object. -/
def intsUnderFields (names : List String) : List (String × Value) → List Int
  | [] => []
  | (name, v) :: rest =>
    (if names.contains name then ints v else []) ++ intsUnder names v ++ intsUnderFields names rest

end

end Value

namespace Fields

/-- The names of fields that hold numbers of steps. -/
def stepNames : List String :=
  ["step", "steps", "call_step", "sstore_step", "revert_step", "arithmetic_step", "failure_step"]

/-- The names of fields that hold numbers of steps of one frame, which the evidence must name. -/
def ownedNames : List String :=
  ["step", "steps", "revert_step"]

/-- The names of fields that hold ids of frames. -/
def frameNames : List String :=
  ["frame_id", "nested_frames"]

@[simp] theorem mem_stepNames_iff {name : String} : name ∈ stepNames ↔
    name = "step" ∨ name = "steps" ∨ name = "call_step" ∨ name = "sstore_step" ∨
      name = "revert_step" ∨ name = "arithmetic_step" ∨ name = "failure_step" := by
  simp [stepNames]

@[simp] theorem mem_ownedNames_iff {name : String} :
    name ∈ ownedNames ↔ name = "step" ∨ name = "steps" ∨ name = "revert_step" := by
  simp [ownedNames]

@[simp] theorem mem_frameNames_iff {name : String} :
    name ∈ frameNames ↔ name = "frame_id" ∨ name = "nested_frames" := by
  simp [frameNames]

/-- The numbers of steps in evidence, at any depth. -/
def stepNumbers (e : Fields) : List Int :=
  Value.intsUnderFields stepNames e

/-- The numbers of steps of one frame in evidence, at any depth. -/
def ownedSteps (e : Fields) : List Int :=
  Value.intsUnderFields ownedNames e

/-- The ids of frames in evidence, at any depth. -/
def frameIds (e : Fields) : List Int :=
  Value.intsUnderFields frameNames e

/-- What evidence says about steps and frames holds of the given frames, where `owners` lists the
frame of each step. -/
structure RefersTo (e : Fields) (frames : List Frame) (owners : List Int) : Prop where
  frames_known : ∀ k ∈ e.frameIds, ∃ f ∈ frames, f.id = k
  steps_known : ∀ n ∈ e.stepNumbers, 0 ≤ n ∧ n < owners.length
  /-- All steps belong to the frame that the evidence names. -/
  owned : ∀ v, e.get? "frame_id" = some v →
    ∃ k, v = .int k ∧ ∀ n ∈ e.stepNumbers, owners[n.toNat]? = some k
  /-- Evidence on the steps of one frame names this frame. -/
  tied : e.ownedSteps ≠ [] → e.has "frame_id"
  /-- The nested frames are those whose parent the evidence names. -/
  nested : ∀ v, e.get? "nested_frames" = some v → ∃ k, e.get? "frame_id" = some (.int k) ∧
    v = .ofInts ((frames.filter fun f => f.parent = some k).map Frame.id)

end Fields

namespace Value

variable {names : List String}

@[simp] theorem ints_int (n : Int) : (int n).ints = [n] :=
  rfl

@[simp] theorem ints_ofInts (ns : List Int) : (ofInts ns).ints = ns := by
  rw [ofInts, ints, List.filterMap_map]
  exact List.filterMap_some

@[simp] theorem ints_ofInt? (n : Option Int) : (ofInt? n).ints = n.toList := by
  cases n <;> rfl

@[simp] theorem intsUnder_object (fields : Fields) :
    intsUnder names (.object fields) = intsUnderFields names fields := by
  rw [intsUnder]

@[simp] theorem intsUnder_int (n : Int) : intsUnder names (.int n) = [] := by
  rw [intsUnder] <;> exact nofun

@[simp] theorem intsUnder_text (s : String) : intsUnder names (.text s) = [] := by
  rw [intsUnder] <;> exact nofun

@[simp] theorem intsUnder_bool (b : Bool) : intsUnder names (.bool b) = [] := by
  rw [intsUnder] <;> exact nofun

theorem intsUnder_list_map {α : Type} (f : α → Value) (as : List α) :
    intsUnder names (.list (as.map f)) = as.flatMap fun a => intsUnder names (f a) := by
  rw [intsUnder]
  induction as with
  | nil => rw [List.map_nil, intsUnderItems, List.flatMap_nil]
  | cons a as ih => rw [List.map_cons, intsUnderItems, ih, List.flatMap_cons]

@[simp] theorem intsUnder_ofInt? (n : Option Int) : intsUnder names (ofInt? n) = [] := by
  cases n <;> rw [ofInt?, Option.elim, intsUnder] <;> exact nofun

@[simp] theorem intsUnder_ofText? (s : Option String) : intsUnder names (ofText? s) = [] := by
  cases s <;> rw [ofText?, Option.elim, intsUnder] <;> exact nofun

@[simp] theorem intsUnder_ofInts (ns : List Int) : intsUnder names (ofInts ns) = [] := by
  rw [ofInts, intsUnder_list_map]
  exact List.flatMap_eq_nil_iff.mpr fun n _ => intsUnder_int n

end Value

/-! ### Numbers in records of steps -/

open Fields Value

@[simp] theorem Step.stepNumbers_references (steps : List Step) :
    (Value.list (steps.map toReference)).intsUnder stepNames = steps.map Step.index := by
  rw [intsUnder_list_map, List.map_eq_flatMap]
  exact List.flatMap_congr fun s _ => by simp [toReference, intsUnderFields]

@[simp] theorem Step.frameIds_references (steps : List Step) :
    (Value.list (steps.map toReference)).intsUnder frameNames = [] := by
  rw [intsUnder_list_map]
  exact List.flatMap_eq_nil_iff.mpr fun s _ => by simp [toReference, intsUnderFields]

@[simp] theorem StorageWrite.stepNumbers_records (ws : List StorageWrite) :
    (Value.list (ws.map toValue)).intsUnder stepNames = ws.map StorageWrite.step := by
  rw [intsUnder_list_map, List.map_eq_flatMap]
  exact List.flatMap_congr fun w _ => by simp [toValue, intsUnderFields]

@[simp] theorem StorageWrite.frameIds_records (ws : List StorageWrite) :
    (Value.list (ws.map toValue)).intsUnder frameNames = [] := by
  rw [intsUnder_list_map]
  exact List.flatMap_eq_nil_iff.mpr fun s _ => by simp [toValue, intsUnderFields]

end TraceAudit
