import TraceAudit.Numeral

/-!
# Moments

The time of a log record, in universal time down to the microsecond, and its two spellings: the full
one with date and offset, where a fraction of zero is left away, and the time of day alone.
-/

namespace TraceAudit.Log

/-- A moment in universal time. -/
structure Moment where
  year : Nat
  month : Nat
  day : Nat
  hour : Nat
  minute : Nat
  second : Nat
  microsecond : Nat := 0
deriving DecidableEq, Repr

namespace Moment

/-- A number in at least so many digits. -/
def padded (width n : Nat) : String :=
  String.ofList (Numeral.decimalPadded width n)

/-- The time of day. -/
def timeOfDay (m : Moment) : String :=
  s!"{padded 2 m.hour}:{padded 2 m.minute}:{padded 2 m.second}"

/-- Date and time with the offset of universal time. -/
def full (m : Moment) : String :=
  let fraction := if m.microsecond = 0 then "" else "." ++ padded 6 m.microsecond
  s!"{padded 4 m.year}-{padded 2 m.month}-{padded 2 m.day}T{m.timeOfDay}{fraction}+00:00"

end Moment

end TraceAudit.Log
