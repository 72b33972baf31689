import TraceAudit.Note
import TraceAudit.Static.Tool

/-!
# Sources of static findings

A source is the name of a tool with its report. Sources are handed over as a table, in an order
that matters to the merge. A source that is refused contributes no findings and leaves a note, so it
does not stop an analysis. Two things do: a table that is no table, and a report at which reading
comes to a fault that was not foreseen (`isForeseen`).
-/

namespace TraceAudit.Static

/-- A table of sources as it is handed over. -/
inductive SourceTable where
  /-- Sources one by one. -/
  | pairs (sources : List (Value × Value))
  /-- An object of sources, nothing at all, or something that is no table. -/
  | value (v : Value)

namespace SourceTable

/-- A source with a usable name. -/
def sourceOf : Value × Value → Except Fault (String × Value)
  | (.text name, report) => .ok (name, report)
  | _ => .error .missingOperation

/-- The sources of a table. One that is given again keeps its place and gets the last report. -/
def sources : SourceTable → Except Fault Fields
  | pairs ps => do return Fields.ofPairs (← ps.mapM sourceOf)
  | value (.object fields) => .ok fields
  | value v => if v.truthy then .error .missingOperation else .ok []

end SourceTable

/-- Whether a fault is one of those that reports are refused for: a value that is not as it should
be, or has the wrong kind, or lacks an operation. -/
def isForeseen : Fault → Bool
  | .payload _ | .rejectedFields _ | .unreadableJson | .badValue => true
  | .wrongKind | .missingOperation => true
  | _ => false

/-- The findings of a source, with the notes on what was wrong with it. A missing report is no
report. -/
def ofSource (name : String) (report : Value) : Except Fault (List Finding × List Note) :=
  match Tool.ofName? name with
  | none => .ok ([], [.unknownTool name])
  | some tool =>
    match report with
    | .null => .ok ([], [])
    | _ =>
      match tool.normalize report with
      | .ok findings => .ok (findings, [])
      | .error fault =>
        if isForeseen fault then .ok ([], [.unusableOutput name fault]) else .error fault

end TraceAudit.Static
