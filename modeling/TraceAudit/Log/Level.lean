import TraceAudit.Fault
import TraceAudit.Numeral
import TraceAudit.Text.Case

/-!
# Levels of log records

A level is an integer; more urgent records have higher ones. Six levels have names of their own.
-/

namespace TraceAudit.Log

/-- The urgency of a record. -/
abbrev Level := Int

namespace Level

/-- No level at all. -/
def notSet : Level := 0

/-- Details of a run. -/
def debug : Level := 10

/-- What a run tells about itself. -/
def info : Level := 20

/-- Something was not as it should be. -/
def warning : Level := 30

/-- Something failed. -/
def error : Level := 40

/-- All is lost. -/
def critical : Level := 50

/-- The name of a level. -/
def name (level : Level) : String :=
  if level = notSet then "NOTSET"
  else if level = debug then "DEBUG"
  else if level = info then "INFO"
  else if level = warning then "WARNING"
  else if level = error then "ERROR"
  else if level = critical then "CRITICAL"
  else "Level " ++ Numeral.decimal level

/-- The names by which levels are asked for. -/
def namesAsked : List (String × Level) := [
  ("CRITICAL", critical), ("FATAL", critical), ("ERROR", error), ("WARNING", warning),
  ("WARN", warning), ("INFO", info), ("DEBUG", debug), ("NOTSET", notSet)]

/-- The level that is asked for by a name in any case. Two names are taken by things that are no
levels; every other name stands for the level of information. -/
def ofAsked (name : String) : Except Fault Level :=
  let name := Text.upper name
  if name = "BASIC_FORMAT" then .error .badValue
  else if name = "_STYLES" then .error .wrongKind
  else .ok ((namesAsked.lookup name).getD info)

end Level

end TraceAudit.Log
