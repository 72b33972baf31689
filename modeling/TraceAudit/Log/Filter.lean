import TraceAudit.Log.RunTag

/-!
# Filters

A handler asks its filters, one after the other, whether it takes a record. A filter may also change
the record, as the tag of a run does. The change stays on the record when a later filter holds it
back, and it stays there for the handlers to come.
-/

namespace TraceAudit.Log

/-- What a filter makes of a record: the record after it, and whether the record passes. -/
structure Verdict where
  record : Record
  passes : Bool := true

/-- A filter: the tag of a run, or one of another kind, of which nothing is known. -/
inductive Filter where
  | tag (t : RunTag)
  | custom (judge : Record → Except Fault Verdict)

namespace Filter

/-- What a filter makes of a record. A tag lets every record pass. -/
def judge (r : Record) : Filter → Except Fault Verdict
  | tag t => return { record := ← t.apply r }
  | custom judge => judge r

/-- What filters make of a record, one after the other, up to the first that holds it back. -/
def judgeAll (r : Record) : List Filter → Except Fault Verdict
  | [] => .ok { record := r }
  | f :: rest => do
    let v ← f.judge r
    if v.passes then judgeAll v.record rest else .ok v

/-- The tag that a filter is. -/
def tag? : Filter → Option RunTag
  | tag t => some t
  | custom _ => none

end Filter

end TraceAudit.Log
