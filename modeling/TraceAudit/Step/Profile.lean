import TraceAudit.Step.Basic
import TraceAudit.Value.Basic

/-!
# Opcode profile

How often each instruction ran and what it cost in all. The profile is ranked by cost, then by
count, both descending, and then by mnemonic, so it does not depend on the order of the steps.
-/

namespace TraceAudit

/-- Count and summed cost of one instruction. -/
structure OpcodeProfile where
  op : String
  count : Nat
  gasCostSum : Int
deriving DecidableEq, Repr

namespace OpcodeProfile

/-- The profile of one instruction. -/
def ofOp (steps : List Step) (op : String) : OpcodeProfile :=
  let own := steps.filter fun s => s.op == op
  ⟨op, own.length, own.foldr (fun s cost => s.gasCost + cost) 0⟩

/-- Whether one profile may stand before another: more cost, then more runs, then mnemonic. -/
def precedes (a b : OpcodeProfile) : Bool :=
  if a.gasCostSum ≠ b.gasCostSum then b.gasCostSum < a.gasCostSum
  else if a.count ≠ b.count then b.count < a.count
  else a.op ≤ b.op

/-- The profiles of all instructions, ranked. -/
def ranked (steps : List Step) : List OpcodeProfile :=
  ((steps.map Step.op).eraseDups.map (ofOp steps)).mergeSort precedes

/-- The number of entries that a limit leaves of a list; a negative limit counts from its end. -/
def kept (length : Nat) (limit : Int) : Nat :=
  (if limit < 0 then limit + length else limit).toNat

/-- The first entries of the ranked profile. -/
def top (steps : List Step) (limit : Int) : List OpcodeProfile :=
  let all := ranked steps
  all.take (kept all.length limit)

/-- A profile as a record. -/
def toValue (p : OpcodeProfile) : Value :=
  .object [("op", .text p.op), ("count", .int p.count), ("gas_cost_sum", .int p.gasCostSum)]

end OpcodeProfile

end TraceAudit
