import TraceAudit.Field
import TraceAudit.Severity

/-!
# Findings

A suspected defect, raised by a detector or by another tool. The evidence of one finding is an
object; where findings have been merged it is the list of their evidence.
-/

namespace TraceAudit

/-- What a finding rests on. -/
inductive Evidence where
  | object (fields : Fields)
  | list (items : List Value)
deriving Inhabited

namespace Evidence

/-- The evidence as a list, one object alone as the list of it. -/
def items : Evidence → List Value
  | object fields => [.object fields]
  | list items => items

/-- The fields that tell the place of a finding: those of the first object. -/
def firstFields : Evidence → Fields
  | object fields => fields
  | list items => (items.findSome? fun
      | .object fields => some fields
      | _ => none).getD []

/-- Evidence as a value. -/
def toValue : Evidence → Value
  | object fields => .object fields
  | list items => .list items

/-- The evidence that a value holds: an object or a list. -/
def ofValue? : Value → Option Evidence
  | .object fields => some (object fields)
  | .list items => some (list items)
  | _ => none

end Evidence

/-- A suspected defect. -/
structure Finding where
  id : String
  /-- The tag of the rule that is broken. -/
  rule : String
  severity : Severity
  title : String
  description : String
  evidence : Evidence := .object []
  recommendation : String := ""
  /-- Tags without repetition. -/
  tags : List String := []
deriving Inhabited

namespace Finding

/-- Read the fields of a finding. Of repeated tags the first is kept. -/
def ofFields (f : Fields) : Checked Finding :=
  Finding.mk
    <$> Field.required f "id" Field.text
    <*> Field.required f "rule" Field.text
    <*> Field.required f "severity" (Field.named Severity.ofName?)
    <*> Field.required f "title" Field.text
    <*> Field.required f "description" Field.text
    <*> Field.withDefault f "evidence" Evidence.ofValue? (.object [])
    <*> Field.withDefault f "recommendation" Field.text ""
    <*> (List.eraseDups <$> Field.withDefault f "tags" (Field.listOf Field.text) [])

/-- Read a finding. -/
def ofValue : Value → Except Fault Finding :=
  Field.record ofFields

/-- A finding as a record. -/
def toValue (f : Finding) : Value :=
  .object [
    ("id", .text f.id), ("rule", .text f.rule), ("severity", .text f.severity.name),
    ("title", .text f.title), ("description", .text f.description),
    ("evidence", f.evidence.toValue), ("recommendation", .text f.recommendation),
    ("tags", .ofTexts f.tags)]

end Finding

end TraceAudit
