import TraceAudit.Fault
import TraceAudit.Memory

/-!
# Call data

The data handed to a call is a window of the caller's memory. Offset and size come from stack
words, which may denote negative integers: a negative offset counts from the end of the memory, and
a negative size is refused. `Fault.badValue` stands for this refusal however far below zero the size
is; sizes that no machine integer of 64 bits holds are refused in other words, which are not told
apart here. Windows above `maxBytes` are not materialized.
-/

namespace TraceAudit.Calldata

/-- Larger windows are not read: the limit is one mebibyte. -/
def maxBytes : Int := 1048576

/-- The position that an index stands for in a sequence of the given length: a negative index
counts from the end, and positions are cut to the sequence. -/
def clampIndex (length : Nat) (i : Int) : Nat :=
  min (if i < 0 then i + length else i).toNat length

/-- The bytes between two indices. -/
def slice (bytes : List UInt8) (start stop : Int) : List UInt8 :=
  let from' := clampIndex bytes.length start
  let to' := clampIndex bytes.length stop
  (bytes.drop from').take (to' - from')

/-- The bytes of a window of the given size, filled up with zeros. -/
def windowBytes (bytes : List UInt8) (offset : Int) (size : Nat) : List UInt8 :=
  Memory.padTo size (if offset < bytes.length then slice bytes offset (offset + size) else [])

/-- Whether reading a window looks at the memory at all. -/
def touchesMemory (offset size : Option Int) : Bool :=
  match offset, size with
  | some _, some n => n ≠ 0 && n ≤ maxBytes
  | _, _ => false

/-- The data of a call as hexadecimal text: nothing where an operand is missing or the window is too
large. -/
def read (memory : List String) (offset size : Option Int) : Except Fault (Option String) :=
  match offset, size with
  | some o, some n =>
    if n = 0 then .ok (some "0x")
    else if maxBytes < n then .ok none
    else if n < 0 then .error .badValue
    else .ok (some ("0x" ++ Memory.hex (windowBytes (Memory.flatten memory) o n.toNat)))
  | _, _ => .ok none

/-- The selector: the first four bytes of call data that has as many. -/
def selector? (data : String) : Option String :=
  let cs := data.toList
  if cs.length < 10 then none else some (String.ofList (Text.lowerChars (cs.take 10)))

end TraceAudit.Calldata
