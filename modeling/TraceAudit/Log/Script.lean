import TraceAudit.Log.Session

/-!
# Programs that log

A program logs records and may fail on the way. Parts of it may lie inside of a run. Such a part is
a block: the run is opened before it and left after it, also when the block fails.
-/

namespace TraceAudit.Log

/-- What comes of a program: the state of logging after it, the lines that were written, and the
fault it ended with, if any. -/
structure Outcome where
  session : Session
  lines : List String := []
  fault : Option Fault := none

/-- Perform a body inside of a run. A fault of the body remains, unless leaving the run fails. -/
def Session.within (s : Session) (tag : RunTag) (body : Session → Outcome) : Outcome :=
  match s.enter tag with
  | .error fault => { session := s, fault := some fault }
  | .ok inner =>
    let o := body inner
    match o.session.leave with
    | .error fault => { o with fault := some fault }
    | .ok outer => { o with session := outer }

/-- Programs, as far as they concern logging. -/
inductive Script where
  /-- Log a record. -/
  | log (now : Moment) (r : Record)
  /-- End with a fault. -/
  | fail (fault : Fault)
  /-- Do nothing. -/
  | skip
  /-- Two programs, the second only if the first has not failed. -/
  | andThen (first second : Script)
  /-- Two programs, the second only if the first has failed. Its fault is forgotten. -/
  | orElse (first second : Script)
  /-- A block inside of a run. -/
  | within (tag : RunTag) (body : Script)

/-- Perform a program. -/
def Script.perform : Script → Session → Outcome
  | log now r, s =>
    let (lines, fault) := s.log now r
    { session := s, lines, fault }
  | fail fault, s => { session := s, fault := some fault }
  | skip, s => { session := s }
  | andThen first second, s =>
    let o := first.perform s
    match o.fault with
    | some _ => o
    | none =>
      let o' := second.perform o.session
      { o' with lines := o.lines ++ o'.lines }
  | orElse first second, s =>
    let o := first.perform s
    match o.fault with
    | none => o
    | some _ =>
      let o' := second.perform o.session
      { o' with lines := o.lines ++ o'.lines }
  | within tag body, s => s.within tag body.perform

end TraceAudit.Log
