import TraceAudit.Address
import TraceAudit.Calldata
import TraceAudit.Fault
import TraceAudit.Quantity
import TraceAudit.Value.Basic

/-!
# Words, memory and addresses of any kind

Whoever looks at a trace before it is ingested holds values of any kind where words, memories and
addresses should be. The operations on those are defined for such values, too: what is not given
counts as missing, and a value whose kind does not admit the operation is refused. On values of the
right kind each operation is the one of the module for this kind.
-/

namespace TraceAudit.Raw

open Text

/-! ### Words -/

/-- The integer that a word denotes. A word may be an integer already, and a boolean is none. -/
def toInt? : Value → Except Fault (Option Int)
  | .null | .bool _ => .ok none
  | .int n => .ok (some n)
  | .text word => .ok (Word.toInt? word)
  | _ => .error .missingOperation

/-- The hexadecimal text of a quantity. -/
def hexText? : Value → Except Fault (Option String)
  | .null => .ok none
  | .text s => .ok (Quantity.hexText? s)
  | v =>
    match v.asInt? with
    | some n => .ok (some (Numeral.hex n))
    | none => .error .missingOperation

/-- The canonical digits of a word; a word that is not given is zero. -/
def normalize (v : Value) : Except Fault String :=
  if !v.truthy then .ok (Word.normalize "")
  else match v with
    | .text word => .ok (Word.normalize word)
    | _ => .error .missingOperation

/-- The address in a word. -/
def address? : Value → Except Fault (Option String)
  | .null => .ok none
  | .text word => .ok (Word.address? word)
  | _ => .error .missingOperation

/-- How a number stands to an integer. A NaN stands in no order, and what is no number cannot be
compared. -/
def order? (v : Value) (n : Int) : Except Fault (Option Ordering) :=
  match v with
  | .float x =>
    if x.isNaN then .ok none
    else if !x.isFinite then .ok (some (if x.negative then .lt else .gt))
    else
      let (num, den) := x.ratio
      .ok (some (compare (if x.negative then -(num : Int) else num) (n * den)))
  | v =>
    match v.asInt? with
    | some m => .ok (some (compare m n))
    | none => .error .wrongKind

/-- The number of elements of a sequence. -/
def length : Value → Except Fault Nat
  | .text s => .ok s.length
  | .list items => .ok items.length
  | .object fields => .ok fields.length
  | _ => .error .wrongKind

/-- The element at a place of a stack, nothing outside of it. -/
def stackAt (stack place : Value) : Except Fault Value := do
  match ← order? place 0 with
  | some .lt | none => return .null
  | _ =>
    match ← order? place (← length stack) with
    | some .lt =>
      match place.asInt?, stack with
      | some i, .list items => return items.getD i.toNat .null
      | some i, .text s => return .ofText? ((s.toList[i.toNat]?).map String.singleton)
      | _, _ => .error .wrongKind
    | _ => return .null

/-! ### Memory -/

/-- A word of a memory; one that is not given is empty. -/
def memoryWord (v : Value) : Except Fault String :=
  if !v.truthy then .ok ""
  else match v with
    | .text word => .ok word
    | _ => .error .missingOperation

/-- The words of a memory: a memory that is not given has none, and the characters of a text and
the names of an object are words. -/
def memoryWords (v : Value) : Except Fault (List String) :=
  if !v.truthy then .ok []
  else match v with
    | .list items => items.mapM memoryWord
    | .text s => .ok (s.toList.map String.singleton)
    | .object fields => .ok (fields.map Prod.fst)
    | _ => .error .wrongKind

/-- The bytes of a memory. -/
def flatten (memory : Value) : Except Fault (List UInt8) := do
  return Memory.flatten (← memoryWords memory)

/-- More zeros than these cannot be filled in. -/
def maxFilling : Int := 9223372036854775807

/-- Read a window of a memory. -/
def readMemory (memory offset size pad : Value) : Except Fault (List UInt8) := do
  match ← order? size 0 with
  | some .lt | some .eq => return []
  | _ =>
    match ← order? offset 0 with
    | some .lt => return []
    | _ =>
      let words ← memoryWords memory
      match offset.asInt?, size.asInt? with
      | some o, some n =>
        let held := (Memory.read words o n false).length
        if pad.truthy ∧ maxFilling < n - held then .error .overflow
        else return Memory.read words o n pad.truthy
      | _, _ => .error .wrongKind

/-- The offset of a window in a memory of the given length. All offsets behind the end are alike,
and an offset before it must be an integer. -/
def windowOffset (length : Nat) (offset : Value) : Except Fault Int := do
  match ← order? offset length with
  | some .lt =>
    match offset.asInt? with
    | some o => return o
    | none => .error .wrongKind
  | _ => return length

/-- Read the data of a call from a memory. The size alone decides about windows that are empty or
too large. -/
def readCallInput (memory offset size : Value) : Except Fault (Option String) := do
  match offset, size with
  | .null, _ | _, .null => return none
  | _, _ =>
    match ← order? size 0, ← order? size Calldata.maxBytes with
    | some .eq, _ => return some "0x"
    | _, some .gt => return none
    | _, _ =>
      let words ← memoryWords memory
      let o ← windowOffset (Memory.flatten words).length offset
      match size.asInt? with
      | some n => Calldata.read words (some o) (some n)
      | none => .error .wrongKind

/-! ### Call data and addresses -/

/-- The selector of call data. -/
def selector? (data : Value) : Except Fault (Option String) :=
  if !data.truthy then .ok none
  else do
    let size ← length data
    match data with
    | .text s => return Calldata.selector? s
    | .object _ => if size < 10 then return none else .error .wrongKind
    | _ => if size < 10 then return none else .error .missingOperation

/-- The text of an address, if there is one. -/
def addressText (v : Value) : Except Fault String :=
  match v with
  | .text s => .ok s
  | _ => .error .missingOperation

/-- Whether an address is that of a contract which the machine provides. -/
def isPrecompile (address : Value) : Except Fault Bool :=
  if !address.truthy then .ok false
  else do return Address.isPrecompile (← addressText address)

/-- Whether two addresses are given and equal. -/
def sameAddress (a b : Value) : Except Fault Bool :=
  if !a.truthy || !b.truthy then .ok false
  else do return Address.same (← addressText a) (← addressText b)

end TraceAudit.Raw
