import TraceAudit.Text.Case
import TraceAudit.Word

/-!
# Addresses

Addresses are compared as lower case text. An absent or empty address equals nothing.
-/

namespace TraceAudit.Address

open Text

/-- The address with the given number. -/
def ofNat (n : Nat) : String :=
  String.ofList ('0' :: 'x' :: List.leftpad 40 '0' (Nat.toDigits 16 n))

/-- The addresses of the contracts that the machine itself provides. -/
def precompiles : List String :=
  (List.range 9).map fun n => ofNat (n + 1)

/-- Whether the address is that of a contract which the machine provides. -/
def isPrecompile (address : String) : Bool :=
  address ≠ "" && lower address ∈ precompiles

/-- Whether two addresses are given and equal. -/
def same (a b : String) : Bool :=
  a ≠ "" && b ≠ "" && lower a = lower b

end TraceAudit.Address
