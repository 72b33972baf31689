import TraceAudit.Detector.Basic
import TraceAudit.Memory

/-!
# Arithmetic out of range

Contracts with checked arithmetic revert with a payload of four bytes that mark a panic and a word
with its code; code `0x11` stands for arithmetic. If the payload of some revert has this code, each
such revert is reported with high confidence. Otherwise arithmetic that a halt in failure follows
closely is reported as a mere possibility.
-/

namespace TraceAudit

/-! ### Payloads -/

/-- The payload of a panic. -/
structure Panic where
  code : Nat
deriving DecidableEq, Repr

namespace Panic

/-- The bytes that mark a panic. -/
def mark : List UInt8 := [0x4E, 0x48, 0x7B, 0x71]

/-- The mark as text. -/
def selector : String := "0x" ++ Memory.hex mark

/-- The length of a panic's payload. -/
def size : Nat := 36

/-- The code of arithmetic out of range. -/
def arithmeticCode : Nat := 0x11

/-- Decode a payload; what follows the code does not matter. -/
def ofPayload? (payload : List UInt8) : Option Panic :=
  if size ≤ payload.length ∧ payload.take 4 = mark then
    some ⟨Memory.bigEndian ((payload.take size).drop 4)⟩
  else none

end Panic

namespace Step

/-- Offset and size of the payload of a revert, if the size is positive and within the limit. -/
def payloadWindow? (s : Step) (maxBytes : Int) : Option (Int × Int) :=
  match s.int? 0, s.int? 1 with
  | some offset, some size => if 0 < size ∧ size ≤ maxBytes then some (offset, size) else none
  | _, _ => none

/-- The payload of a revert, as far as the memory covers it; nothing where it covers none of it. -/
def revertPayload? (s : Step) (maxBytes : Int) : Option (List UInt8) :=
  (s.payloadWindow? maxBytes).bind fun (offset, size) =>
    match Memory.read s.memory offset size false with
    | [] => none
    | bytes => some bytes

/-- The memory words that reading the payload looks at and cannot read. -/
def unreadablePayload (s : Step) (maxBytes : Int) : List String :=
  match s.payloadWindow? maxBytes with
  | some (offset, _) => if offset < 0 then [] else Memory.unreadable s.memory
  | none => []

/-- The panic that a step reverts with. -/
def panic? (s : Step) (maxBytes : Int) : Option Panic :=
  if s.op = Opcode.revert then (s.revertPayload? maxBytes).bind Panic.ofPayload? else none

end Step

/-- What the detector of arithmetic out of range says about itself. -/
def Detector.arithmeticInfo : DetectorInfo where
  id := "SWC-101-001"
  name := "Arithmetic Overflow/Underflow"
  description := "Decodes REVERT payloads for Panic(0x11); when none is present, flags " ++
    "ADD/SUB/MUL/DIV steps shortly followed by REVERT or INVALID."
  weakness := "SWC-101"
  rule := .arithmetic
  severity := .high
  category := "arithmetic"
  recommendation := "Upgrade to Solidity >=0.8 for built-in overflow checks. For earlier " ++
    "versions, use SafeMath library. Ensure all arithmetic operations are properly bounded " ++
    "and validated."
  tags := ["dynamic", "overflow"]

/-! ### Decoded panics -/

/-- A revert with the panic of arithmetic. -/
structure ArithmeticPanic where
  revert : Step
  frame : Option Int
  /-- The first arithmetic steps before the revert, in the same frame. -/
  preceding : List Step
  /-- How many steps before the revert were looked at. -/
  lookback : Int
deriving DecidableEq, Repr

namespace ArithmeticPanic

/-- The positions before a step that are looked at. -/
def positionsBefore (c : Context) (revert : Int) : List Int :=
  c.positions (max 0 (revert - c.settings.panicArithmeticLookback)) revert

/-- The first arithmetic steps of the lookback before a revert. All of the lookback is walked
along before the list is cut. -/
def precedingOf (c : Context) (revert : Int) : Except Fault (List Step) := do
  let before := positionsBefore c revert
  let ops ← c.collect (fun i s => s.isArithmetic && c.frameOf i = c.frameOf revert) before.length
    before
  return ops.take c.settings.maxPrecedingArithmetic

/-- The arithmetic panic of a revert. -/
def ofRevert (c : Context) (s : Step) : Except Fault (List ArithmeticPanic) := do
  let preceding ← precedingOf c s.index
  return [⟨s, c.frameOf s.index, preceding, min c.settings.panicArithmeticLookback s.index⟩]

/-- The description of a panic. -/
def description (p : ArithmeticPanic) : String :=
  let ops := ", ".intercalate (p.preceding.map Step.op)
  s!"Solidity 0.8 panic detected at step {p.revert.index} with selector " ++
  s!"{Panic.selector} and code {Numeral.hex Panic.arithmeticCode} (arithmetic " ++
  "overflow/underflow). The transaction reverted due to arithmetic operation exceeding " ++
  "valid range. " ++
  (if p.preceding.isEmpty then
    "No preceding arithmetic operations detected in lookback window."
  else
    s!"Found {p.preceding.length} arithmetic operations ({ops}) in preceding " ++
    s!"{p.lookback} steps.")

/-- The write-up of a panic. -/
def draft (p : ArithmeticPanic) : Draft where
  title := "Arithmetic Overflow/Underflow Panic Detected"
  description := p.description
  evidence := [
    ("revert_step", .int p.revert.index), ("panic_selector", .text Panic.selector),
    ("panic_code", .int Panic.arithmeticCode),
    ("panic_code_meaning", .text "Arithmetic Overflow/Underflow"),
    ("frame_id", .ofInt? p.frame),
    ("preceding_arithmetic_ops", .list (p.preceding.map Step.toReference))]
  severity := .high
  tags := ["panic-detected"]

/-- The notes on one step. -/
def notes (c : Context) (s : Step) : List Note :=
  let limit : Int := c.settings.panicMaxPayloadBytes
  if s.op = Opcode.revert then
    (s.unreadablePayload limit).map Note.unreadableWord ++
      match s.panic? limit with
      | some p => if p.code = Panic.arithmeticCode then [] else [.otherPanic p.code s.index]
      | none => []
  else []

/-- The panic of arithmetic that a step reverts with, if it does. -/
def ofStep (c : Context) (s : Step) : Except Fault (List ArithmeticPanic) :=
  match s.panic? c.settings.panicMaxPayloadBytes with
  | some p => if p.code = Panic.arithmeticCode then ofRevert c s else .ok []
  | none => .ok []

/-- What is found at a step. -/
def detectAt (c : Context) (s : Step) : DetectM (List Finding) := do
  DetectM.note (notes c s)
  Detector.arithmeticInfo.makeAll draft (ofStep c s)

end ArithmeticPanic

/-! ### Halts behind arithmetic -/

/-- Arithmetic that a halt in failure follows. -/
structure SuspectArithmetic where
  arithmetic : Step
  halt : Step
deriving DecidableEq, Repr

namespace SuspectArithmetic

/-- The first halt in failure in a window behind a step, if the step is arithmetic. -/
def haltBehind? (window : Nat) (s : Step) (rest : List Step) : Option Step :=
  if s.isArithmetic then (rest.take window).find? Step.isAbnormalHalt else none

/-- The write-up. -/
def draft (a : SuspectArithmetic) : Draft where
  title := s!"Possible {a.arithmetic.op} Overflow/Underflow (Heuristic)"
  description :=
    s!"Arithmetic operation ({a.arithmetic.op}) at step {a.arithmetic.index} followed by " ++
    s!"{a.halt.op} at step {a.halt.index}. May indicate overflow check in " ++
    "Solidity >=0.8 or SafeMath library. No Panic selector confirmed."
  evidence := [
    ("arithmetic_step", .int a.arithmetic.index), ("arithmetic_op", .text a.arithmetic.op),
    ("failure_step", .int a.halt.index), ("failure_op", .text a.halt.op),
    ("steps_between", .int (a.halt.index - a.arithmetic.index))]
  severity := .medium
  tags := ["heuristic"]

/-- What is found at a step with the steps behind it. -/
def detectAt (window : Nat) (s : Step) (rest : List Step) : DetectM (List Finding) := do
  match haltBehind? window s rest with
  | some halt => return [← Detector.arithmeticInfo.make (draft ⟨s, halt⟩)]
  | none => return []

end SuspectArithmetic

/-- The detector of arithmetic out of range. -/
def Detector.arithmetic : Detector where
  info := arithmeticInfo
  detect c := do
    let panics ← c.steps.toList.flatMapM (ArithmeticPanic.detectAt c)
    if panics.isEmpty then
      DetectM.alongTails (SuspectArithmetic.detectAt c.settings.arithmeticFallbackWindow)
        c.steps.toList
    else return panics

end TraceAudit
