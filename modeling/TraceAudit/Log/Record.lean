import TraceAudit.Log.Level
import TraceAudit.Log.Template

/-!
# Log records

A record is a message with where it comes from: a channel, a level, and a place in a program. It may
carry the error that it is about, and details by name.
-/

namespace TraceAudit.Log

/-- The error that a record is about. -/
structure Failure where
  /-- The name of the error's type. -/
  type : String
  /-- What the error was raised with. -/
  args : List Value
  /-- Whether the record tells the type of the error. -/
  typed : Bool := true
deriving Inhabited

namespace Failure

/-- The types of errors that are written with the module that they belong to. -/
def ownTypes : List (String × String) := [
  ("TraceError", "tracesentry.core.errors"),
  ("MalformedTraceError", "tracesentry.core.errors")]

/-- The text of an error: what it was raised with, in parentheses if that is more than one thing. A
key that is missing is shown as a literal. -/
def text (f : Failure) : String :=
  match f.args with
  | [] => ""
  | [v] => if f.type = "KeyError" then v.literal else v.display
  | vs => "(" ++ ", ".intercalate (vs.map Value.literal) ++ ")"

/-- The type of an error with its module. -/
def fullType (f : Failure) : String :=
  match ownTypes.lookup f.type with
  | some module => module ++ "." ++ f.type
  | none => f.type

/-- The type as the record tells it. -/
def shownType (f : Failure) : String :=
  if f.typed then f.type else "Unknown"

/-- The line that shows an error. -/
def line (f : Failure) : String :=
  if f.text = "" then f.fullType else f.fullType ++ ": " ++ f.text

end Failure

/-- A log record. -/
structure Record where
  /-- The message, a template if there are arguments. -/
  template : String
  args : List Value := []
  channel : String
  level : Level := Level.info
  /-- The file of the program, empty where it is not known. -/
  path : String := ""
  line : Int := 0
  function : String := ""
  failure : Option Failure := none
  /-- Details by name. -/
  details : Fields := []
deriving Inhabited

namespace Record

/-- The message with its arguments. Without arguments a percent sign means nothing. -/
def message (r : Record) : Except Fault String :=
  if r.args.isEmpty then .ok r.template else Template.fill r.template r.args

/-- The part of a file name before its ending. Points that a name starts with are no ending. -/
def stem (name : List Char) : List Char :=
  let ending := name.reverse.takeWhile (· ≠ '.')
  let rest := (name.reverse.dropWhile (· ≠ '.')).drop 1
  if ending.length < name.length ∧ rest.any (· ≠ '.') then rest.reverse else name

/-- The module of a path: the name of the file without its ending. -/
def moduleOf (path : String) : String :=
  String.ofList (stem (path.toList.reverse.takeWhile (· ≠ '/')).reverse)

/-- Set a detail. -/
def withDetail (r : Record) (name : String) (v : Value) : Record :=
  { r with details := r.details.put name v }

end Record

end TraceAudit.Log
