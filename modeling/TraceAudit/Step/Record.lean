import TraceAudit.Field
import TraceAudit.Step.Basic

/-!
# Steps as records

A step that has been ingested before is handed over as a record with the fields of `Step`; its
stack is already top first.
-/

namespace TraceAudit.Step

/-- Read the fields of a step. -/
def ofFields (f : Fields) : Checked Step :=
  Step.mk
    <$> Field.required f "index" Field.integer
    <*> Field.withDefault f "pc" Field.integer 0
    <*> Field.withDefault f "op" Field.text "UNKNOWN"
    <*> Field.withDefault f "gas" Field.integer 0
    <*> Field.withDefault f "gas_cost" Field.integer 0
    <*> Field.withDefault f "depth" Field.integer 0
    <*> Field.withDefault f "stack" (Field.listOf Field.text) []
    <*> Field.withDefault f "memory" (Field.listOf Field.text) []

/-- Read a step. -/
def ofValue : Value → Except Fault Step :=
  Field.record ofFields

/-- A step as a record. -/
def toValue (s : Step) : Value :=
  .object [
    ("index", .int s.index), ("pc", .int s.pc), ("op", .text s.op), ("gas", .int s.gas),
    ("gas_cost", .int s.gasCost), ("depth", .int s.depth), ("stack", .ofTexts s.stack),
    ("memory", .ofTexts s.memory)]

/-- A short record that tells where a step is. -/
def toReference (s : Step) : Value :=
  .object [("step", .int s.index), ("op", .text s.op), ("pc", .int s.pc)]

end TraceAudit.Step
