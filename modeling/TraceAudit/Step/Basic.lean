import TraceAudit.Opcode

/-!
# Steps

A step is the state of the machine before one instruction. Its stack starts with the word that the
instruction pops first.
-/

namespace TraceAudit

/-- The state of the machine before one instruction. -/
structure Step where
  /-- The position that the step claims in its trace. -/
  index : Int
  pc : Int
  op : String
  gas : Int
  gasCost : Int
  depth : Int
  /-- The words of the stack, the top first. -/
  stack : List String
  /-- The words of the memory. -/
  memory : List String
deriving DecidableEq, Repr

namespace Step

/-- The word at a place below the top of the stack. -/
def word? (s : Step) (place : Nat) : Option String :=
  s.stack[place]?

/-- Whether the step hands control to code that is already there. -/
def isExternalCall (s : Step) : Bool :=
  Opcode.externalCalls.contains s.op

/-- Whether the step ends its context in failure. -/
def isAbnormalHalt (s : Step) : Bool :=
  Opcode.abnormalHalts.contains s.op

/-- Whether the step ends its context as intended. -/
def isNormalHalt (s : Step) : Bool :=
  Opcode.normalHalts.contains s.op

/-- Whether the step is arithmetic that may leave the range of a word. -/
def isArithmetic (s : Step) : Bool :=
  Opcode.arithmetic.contains s.op

end Step

end TraceAudit
