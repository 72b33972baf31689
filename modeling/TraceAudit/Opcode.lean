/-!
# Opcodes

Instructions are known by their mnemonic, and tracers may report mnemonics that no machine has. The
classes below are the ones that reconstruction and detection look at.
-/

namespace TraceAudit

/-- The instructions that create a new execution context. -/
inductive CallOp where
  | call
  | callcode
  | delegatecall
  | staticcall
  | create
  | create2
deriving DecidableEq, Repr, Inhabited

namespace CallOp

/-- The mnemonic. -/
def name : CallOp → String
  | call => "CALL"
  | callcode => "CALLCODE"
  | delegatecall => "DELEGATECALL"
  | staticcall => "STATICCALL"
  | create => "CREATE"
  | create2 => "CREATE2"

/-- Every instruction of the class. -/
def all : List CallOp :=
  [call, callcode, delegatecall, staticcall, create, create2]

/-- The instruction with the given mnemonic. -/
def ofName? (op : String) : Option CallOp :=
  all.find? fun c => c.name = op

/-- Whether the instruction runs new code instead of code that is already there. -/
def creates : CallOp → Bool
  | create | create2 => true
  | _ => false

@[simp] theorem ofName?_name (c : CallOp) : ofName? c.name = some c := by
  cases c <;> decide

theorem name_of_ofName? {op : String} {c : CallOp} (h : ofName? op = some c) : c.name = op := by
  simpa using List.find?_some h

end CallOp

namespace Opcode

/-- Instructions that create a new execution context. -/
def callClass : List String :=
  CallOp.all.map CallOp.name

/-- Instructions of the class that hand control to code that is already there. -/
def externalCalls : List String :=
  (CallOp.all.filter fun c => !c.creates).map CallOp.name

/-- Instructions that end a context in failure. -/
def abnormalHalts : List String := ["REVERT", "INVALID"]

/-- Instructions that end a context as intended. -/
def normalHalts : List String := ["RETURN", "STOP", "SELFDESTRUCT"]

/-- Instructions that end a context. -/
def halts : List String := abnormalHalts ++ normalHalts

/-- Instructions that count as a check of a call's outcome. Some tracers report a `REQUIRE` that no
machine has. -/
def callChecks : List String := ["ISZERO", "REVERT", "JUMPI", "REQUIRE"]

/-- Instructions that let an authorization check take effect. -/
def authControls : List String := ["JUMPI", "REVERT", "REQUIRE"]

/-- Arithmetic that may leave the range of a word. -/
def arithmetic : List String := ["ADD", "SUB", "MUL", "DIV"]

/-- The instruction that writes storage. -/
def storageWrite : String := "SSTORE"

/-- The instruction that reads the sender of the transaction. -/
def origin : String := "ORIGIN"

/-- The instruction that ends a context with an error of the contract's choice. -/
def revert : String := "REVERT"

/-- The instruction that pushes an address-sized constant. -/
def addressPush : String := "PUSH20"

end Opcode

end TraceAudit
