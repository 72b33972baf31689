import TraceAudit.Fault
import TraceAudit.Numeral

/-!
# Fields of records

Records arrive as objects. A field is read by what its kind admits, and a record is refused with
the names of *all* fields that have no admissible value; fields that the record does not know are
passed over. Integer fields are liberal: booleans count as zero and one, a number without fraction
counts as the integer it is, and so does the text of an integer.
-/

namespace TraceAudit

open Decimal Text

/-- A value, or the names of the fields that stand in its way. -/
inductive Checked (α : Type) where
  | good (a : α)
  | bad (names : List String)

namespace Checked

variable {α β : Type}

/-- Apply a checked function; the names of both sides add up. -/
def apply : Checked (α → β) → Checked α → Checked β
  | good f, good a => good (f a)
  | good _, bad names => bad names
  | bad names, good _ => bad names
  | bad names, bad more => bad (names ++ more)

instance : Applicative Checked where
  pure := good
  seq f a := f.apply (a ())

/-- A checked value as a result. -/
def toExcept : Checked α → Except Fault α
  | good a => .ok a
  | bad names => .error (.rejectedFields names)

end Checked

namespace Field

variable {α : Type}

/-! ### What the kinds of fields admit -/

/-- A digit of ASCII. -/
def isDigit (c : Char) : Bool :=
  '0' ≤ c && c ≤ '9'

/-- Drop a plus sign; no minus sign may follow it. -/
def dropPlus : List Char → Option (List Char)
  | '+' :: '-' :: _ => none
  | '+' :: rest => some rest
  | cs => some cs

/-- Drop further zeros and underscores behind the zero or underscore `last`. The last of them stays
before a point and at the end. A minus sign ends the zeros as a digit does. -/
def dropZeros (last : Char) : List Char → Option (List Char)
  | [] => some [last]
  | c :: rest =>
    if c = '0' ∨ c = '_' then dropZeros c rest
    else if isDigit c ∨ c = '-' then some (c :: rest)
    else if c = '.' then some (last :: c :: rest)
    else none

/-- Drop leading zeros. A numeral starts with a digit. -/
def dropLeadingZeros : List Char → Option (List Char)
  | '0' :: rest => dropZeros '0' rest
  | c :: rest => if isDigit c then some (c :: rest) else none
  | [] => none

/-- Drop a point with zeros and nothing else behind it. -/
def dropZeroFraction (cs : List Char) : List Char :=
  let fraction := (cs.dropWhile (· ≠ '.')).drop 1
  if fraction ≠ [] ∧ fraction.all (· = '0') then cs.takeWhile (· ≠ '.') else cs

/-- Whether two underscores stand side by side. -/
def doubledUnderscore : List Char → Bool
  | '_' :: '_' :: _ => true
  | _ :: rest => doubledUnderscore rest
  | [] => false

/-- Drop underscores, none of which may stand at an end or beside another. -/
def dropUnderscores (cs : List Char) : Option (List Char) :=
  if cs.head? = some '_' ∨ cs.getLast? = some '_' ∨ doubledUnderscore cs then none
  else some (cs.filter (· ≠ '_'))

/-- The number of digits of ASCII without superfluous zeros and not more than the limit for decimal
numerals. -/
def plainNat? : List Char → Option Nat
  | [] => none
  | ['0'] => some 0
  | '0' :: _ => none
  | cs =>
    if cs.all isDigit ∧ cs.length ≤ Numeral.maxDecimalDigits then
      some (Numeral.ofDigits 10 (cs.map fun c => c.toNat - 48))
    else none

/-- The integer that a text of digits denotes. -/
def plainInt? : List Char → Option Int
  | '-' :: cs => (plainNat? cs).map fun n => -(n : Int)
  | cs => (plainNat? cs).map fun n => (n : Int)

/-- A numeral without its leading zeros, its underscores and its fraction of zeros. -/
def bareNumeral? (cs : List Char) : Option (List Char) := do
  dropUnderscores (dropZeroFraction (← dropLeadingZeros cs))

/-- The integer that the text of an integer field denotes: white space around it, one sign, leading
zeros, single underscores and a fraction of zeros are admitted. A minus sign may also stand behind
leading zeros, if there is none before them. -/
def integerText? (s : String) : Option Int := do
  match ← dropPlus (trim isWhite s.toList) with
  | '-' :: cs => (plainNat? (← bareNumeral? cs)).map fun n => -(n : Int)
  | cs => plainInt? (← bareNumeral? cs)

/-- The integer of a number without fraction, strictly between the bounds of sixty-four bits. -/
def integerFloat? (x : Binary64) : Option Int :=
  if x.isFinite then
    x.toInt?.filter fun n => n.natAbs < Nat.pow 2 63
  else none

/-- Integers. -/
def integer : Value → Option Int
  | .bool b => some (if b then 1 else 0)
  | .int n => some n
  | .float x => integerFloat? x
  | .text s => integerText? s
  | _ => none

/-- Counts not below a bound. -/
def countFrom (least : Nat) (v : Value) : Option Nat :=
  ((integer v).filter fun n => (least : Int) ≤ n).map Int.toNat

/-- Texts. -/
def text : Value → Option String
  | .text s => some s
  | _ => none

/-- Null, or what the other kind admits. -/
def optional (kind : Value → Option α) : Value → Option (Option α)
  | .null => some none
  | v => (kind v).map some

/-- Lists of what the other kind admits. -/
def listOf (kind : Value → Option α) : Value → Option (List α)
  | .list items => items.mapM kind
  | _ => none

/-- Names of things. -/
def named (ofName? : String → Option α) (v : Value) : Option α :=
  (text v).bind ofName?

/-! ### Reading fields -/

/-- A field that must be there. -/
def required (fields : Fields) (name : String) (kind : Value → Option α) : Checked α :=
  match (fields.get? name).bind kind with
  | some a => .good a
  | none => .bad [name]

/-- A field with a default. -/
def withDefault (fields : Fields) (name : String) (kind : Value → Option α) (default : α) :
    Checked α :=
  match fields.get? name with
  | none => .good default
  | some v =>
    match kind v with
    | some a => .good a
    | none => .bad [name]

/-- Read a record from a value; what is not an object is refused as a whole. -/
def record (read : Fields → Checked α) : Value → Except Fault α
  | .object fields => (read fields).toExcept
  | _ => .error (.rejectedFields [""])

end Field

end TraceAudit
