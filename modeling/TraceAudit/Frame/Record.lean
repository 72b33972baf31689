import TraceAudit.Field
import TraceAudit.Frame.Basic

/-!
# Frames as records
-/

namespace TraceAudit.Frame

/-- Read the fields of a frame. -/
def ofFields (f : Fields) : Checked Frame :=
  Frame.mk
    <$> Field.required f "id" Field.integer
    <*> Field.withDefault f "parent_id" (Field.optional Field.integer) none
    <*> Field.withDefault f "depth" Field.integer 0
    <*> Field.withDefault f "entry_depth" Field.integer 0
    <*> Field.withDefault f "kind" (Field.named FrameKind.ofName?) .root
    <*> Field.withDefault f "from_address" (Field.optional Field.text) none
    <*> Field.withDefault f "to" (Field.optional Field.text) none
    <*> Field.withDefault f "value" (Field.optional Field.text) none
    <*> Field.withDefault f "input" (Field.optional Field.text) none
    <*> Field.withDefault f "selector" (Field.optional Field.text) none
    <*> Field.withDefault f "gas_spent" Field.integer 0
    <*> Field.withDefault f "start_step" Field.integer 0
    <*> Field.withDefault f "end_step" Field.integer 0
    <*> Field.withDefault f "status" (Field.named FrameStatus.ofName?) .unknown
    <*> Field.withDefault f "error_kind" (Field.optional Field.text) none
    <*> Field.withDefault f "children" (Field.listOf Field.integer) []

/-- Read a frame. -/
def ofValue : Value → Except Fault Frame :=
  Field.record ofFields

/-- A frame as a record. -/
def toValue (f : Frame) : Value :=
  .object [
    ("id", .int f.id), ("parent_id", .ofInt? f.parent), ("depth", .int f.depth),
    ("entry_depth", .int f.entryDepth), ("kind", .text f.kind.name),
    ("from_address", .ofText? f.sender), ("to", .ofText? f.target), ("value", .ofText? f.value),
    ("input", .ofText? f.input), ("selector", .ofText? f.selector), ("gas_spent", .int f.gasSpent),
    ("start_step", .int f.startStep), ("end_step", .int f.endStep),
    ("status", .text f.status.name), ("error_kind", .ofText? f.errorKind),
    ("children", .ofInts f.children)]

end TraceAudit.Frame
