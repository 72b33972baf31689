import TraceAudit.Decimal.Binary64
import TraceAudit.Fault
import TraceAudit.Numeral
import TraceAudit.Text.Case
import TraceAudit.Value.Display

/-!
# Quantities

Amounts of gas, counters, depths and transferred values come as integers or as text in decimal or
hexadecimal. Two readings exist: `ofValue` makes an integer of anything a tracer may have put into
a step, zero for what it cannot read, and `hexText?` keeps a value as hexadecimal text.
-/

namespace TraceAudit.Quantity

open Text

/-- Whether a text starts with `0x`. -/
def hasMark : List Char → Bool
  | '0' :: 'x' :: _ => true
  | _ => false

/-- The integer of a text in lower case: hexadecimal behind `0x`, decimal otherwise, and zero if it
cannot be read. -/
def ofChars (cs : List Char) : Int :=
  ((if hasMark cs then Numeral.readHex? cs else Numeral.readDecimal? cs).getD 0)

/-- The integer that a tracer's value stands for. A boolean is no quantity and counts as zero; a
fraction is cut off. -/
def ofValue : Value → Except Fault Int
  | .null => .ok 0
  | .bool _ => .ok 0
  | .int n => .ok n
  | .float x =>
    match x.truncate? with
    | some n => .ok n
    | none => .error (if x.isNaN then .badValue else .overflow)
  | v => do return ofChars (lowerChars (strip (← v.display?).toList))

/-- Hexadecimal text of a text: what starts with `0x` stays as it is, in lower case, and decimal
digits are converted. -/
def hexText? (s : String) : Option String :=
  let cs := lowerChars (strip s.toList)
  if hasMark cs then some (String.ofList cs) else (Numeral.readDecimal? cs).map Numeral.hex

end TraceAudit.Quantity
