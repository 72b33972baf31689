import TraceAudit.Step.Basic
import TraceAudit.Value.Basic
import TraceAudit.Word

/-!
# Storage writes

The writes to storage that a trace shows, with their slot and value as canonical words.
-/

namespace TraceAudit

/-- One write to storage. -/
structure StorageWrite where
  /-- The index of the writing step. -/
  step : Int
  slot : String
  value : String
deriving DecidableEq, Repr

namespace Step

/-- The write of a step, if it is one and its stack holds both operands. -/
def storageWrite? (s : Step) : Option StorageWrite :=
  if s.op = Opcode.storageWrite then
    match s.stack with
    | slot :: value :: _ => some ⟨s.index, Word.normalize slot, Word.normalize value⟩
    | _ => none
  else none

/-- The writes of a trace, in its order. -/
def storageWrites (steps : List Step) : List StorageWrite :=
  steps.filterMap storageWrite?

end Step

/-- A write as a record. -/
def StorageWrite.toValue (w : StorageWrite) : Value :=
  .object [("step", .int w.step), ("slot", .text w.slot), ("value", .text w.value)]

end TraceAudit
