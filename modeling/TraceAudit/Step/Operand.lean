import TraceAudit.Step.Basic
import TraceAudit.Word

/-!
# Operands

The words of a step's stack, read as what an instruction takes them for. A word that is missing or
cannot be read is no operand.
-/

namespace TraceAudit.Step

/-- The integer at a place below the top of the stack, if there is a readable word. -/
def int? (s : Step) (place : Nat) : Option Int :=
  (s.word? place).bind Word.toInt?

/-- The address at a place below the top of the stack, if there is a readable word. -/
def address? (s : Step) (place : Nat) : Option String :=
  (s.word? place).bind Word.address?

end TraceAudit.Step
