import TraceAudit.Json.Write
import TraceAudit.Log.Moment
import TraceAudit.Log.Record

/-!
# Lines of a log

A record is written in one of two forms: as an object of JSON for programs, or in color for people.
-/

namespace TraceAudit.Log

/-- The form in which records are written. -/
inductive Form where
  | json
  | colored
deriving DecidableEq, Repr, Inhabited

/-- The details that are written, in order. -/
def shownDetails : List String :=
  ["run_id", "detector", "frame_id", "findings_count", "duration_ms", "source"]

namespace Record

/-- The entries for the place in the program, if it is known. -/
def placeFields (r : Record) : Fields :=
  if r.path = "" then []
  else [
    ("module", .text (moduleOf r.path)), ("function", .text r.function), ("line", .int r.line)]

/-- The entry for the error. -/
def failureFields (r : Record) : Fields :=
  match r.failure with
  | some f => [("exception", .object [
      ("type", .text f.shownType), ("message", .text f.text), ("traceback", .text f.line)])]
  | none => []

/-- The entries for the details. -/
def detailFields (r : Record) : Fields :=
  shownDetails.filterMap fun name => (r.details.get? name).map fun v => (name, v)

/-- A record as an object of JSON. -/
def jsonLine (r : Record) (now : Moment) : Except Fault String := do
  let message ← r.message
  return Json.write (.object ([
    ("timestamp", .text now.full), ("level", .text (Level.name r.level)),
    ("logger", .text r.channel), ("message", .text message)] ++
    r.placeFields ++ r.failureFields ++ r.detailFields))

/-- The code that starts a color. -/
def colorCode (n : Nat) : String :=
  "\x1b[" ++ Numeral.decimal n ++ "m"

/-- The color of a level. -/
def colorOf (level : Level) : String :=
  if level = Level.debug then colorCode 36
  else if level = Level.info then colorCode 32
  else if level = Level.warning then colorCode 33
  else if level = Level.error then colorCode 31
  else if level = Level.critical then colorCode 35
  else ""

/-- The beginning of a run's name, of eight elements. -/
def shortRun (run : Value) : Except Fault String :=
  match run with
  | .text s => .ok (String.ofList (s.toList.take 8))
  | .list items => .ok (Value.list (items.take 8)).display
  | _ => .error .wrongKind

/-- The mark of a record's run, if it has one. -/
def runMark (r : Record) : Except Fault String :=
  let run := r.details.get "run_id"
  if run.truthy then (fun s => "[" ++ s ++ "] ") <$> shortRun run else .ok ""

/-- The name of a level, filled up on the left to eight characters. -/
def levelColumn (level : Level) : String :=
  String.ofList (List.leftpad 8 ' ' (Level.name level).toList)

/-- A record in color. -/
def coloredLine (r : Record) (now : Moment) : Except Fault String := do
  let message ← r.message
  let mark ← r.runMark
  let trailer := match r.failure with
    | some f => "\n" ++ f.line
    | none => ""
  return colorOf r.level ++ now.timeOfDay ++ " [" ++ levelColumn r.level ++ "]" ++ colorCode 0 ++
    " " ++ r.channel ++ ": " ++ mark ++ message ++ trailer

/-- The line of a record. -/
def write (form : Form) (r : Record) (now : Moment) : Except Fault String :=
  match form with
  | .json => r.jsonLine now
  | .colored => r.coloredLine now

end Record

end TraceAudit.Log
