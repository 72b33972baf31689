import TraceAudit.Decimal.Display
import TraceAudit.Fault
import TraceAudit.Text.Quoted

/-!
# Values in messages

A value within a message is written in one of two ways. Its *literal* puts quotes around texts,
brackets around lists and braces around objects; its *display* is the literal, but for a text that
stands alone, which is shown without quotes.

`literal` and `display` write integers in full however long they are, and values however deeply they
are nested. Where a value that comes from outside is made into text, `display?` keeps to the limit
for decimal numerals and to the limit of nesting instead, as readers do.
-/

namespace TraceAudit.Value

open Decimal Text

mutual

/-- The literal of a value. -/
def literal : Value → String
  | null => "None"
  | bool b => if b then "True" else "False"
  | int n => Numeral.decimal n
  | float x => x.display
  | text s => quoted s
  | list items => "[" ++ ", ".intercalate (literals items) ++ "]"
  | object fields => "\x7b" ++ ", ".intercalate (fieldLiterals fields) ++ "\x7d"

/-- The literals of the items of a list. -/
def literals : List Value → List String
  | [] => []
  | v :: rest => literal v :: literals rest

/-- The literals of the fields of an object. -/
def fieldLiterals : List (String × Value) → List String
  | [] => []
  | (name, v) :: rest => (quoted name ++ ": " ++ literal v) :: fieldLiterals rest

end

/-- The display of a value. -/
def display : Value → String
  | text s => s
  | v => literal v

mutual

/-- The first fault that writing a value comes to with the given number of levels left. Every value
takes a level, and the numeral of an integer must keep to the limit. -/
def fault? : Nat → Value → Option Fault
  | 0, _ => some .tooDeep
  | _ + 1, int n => if Numeral.isWritable n then none else some .badValue
  | levels + 1, list items => itemFault? levels items
  | levels + 1, object fields => fieldFault? levels fields
  | _ + 1, _ => none

/-- The first fault among the items of a list. -/
def itemFault? (levels : Nat) : List Value → Option Fault
  | [] => none
  | v :: rest => (fault? levels v).or (itemFault? levels rest)

/-- The first fault among the fields of an object. -/
def fieldFault? (levels : Nat) : List (String × Value) → Option Fault
  | [] => none
  | (_, v) :: rest => (fault? levels v).or (fieldFault? levels rest)

end

/-- Whether a value can be written. -/
def isWritable (v : Value) : Bool :=
  (v.fault? maxDepth).isNone

/-- The display of a value that can be written. -/
def display? (v : Value) : Except Fault String :=
  match v.fault? maxDepth with
  | some fault => .error fault
  | none => .ok v.display

end TraceAudit.Value
