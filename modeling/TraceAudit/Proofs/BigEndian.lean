import Mathlib.Data.Nat.Digits.Defs
import TraceAudit.Memory

/-!
# Numbers as bytes

Bytes denote a number, the most significant byte first (`Memory.bigEndian`): their values are its
digits in base 256 (`bigEndian_eq_ofDigits`). The other way round, `bytesOf` writes the last bytes
of a number, as many as are asked for, and reading them gives the number back if it is not too
large for them (`bigEndian_bytesOf`).
-/

namespace TraceAudit.Memory

/-- The last `width` bytes of a number, the most significant first. -/
def bytesOf : Nat → Nat → List UInt8
  | 0, _ => []
  | width + 1, n => bytesOf width (n / 256) ++ [UInt8.ofNat n]

@[simp]
theorem length_bytesOf (width n : Nat) : (bytesOf width n).length = width := by
  induction width generalizing n with
  | zero => rfl
  | succ width ih => simp [bytesOf, ih]

/-- The first byte is that of the quotient by the range of the others. -/
theorem bytesOf_succ_eq_cons (width n : Nat) :
    bytesOf (width + 1) n = UInt8.ofNat (n / 256 ^ width) :: bytesOf width n := by
  induction width generalizing n with
  | zero => simp [bytesOf]
  | succ width ih =>
    rw [bytesOf, ih, Nat.div_div_eq_div_mul, ← Nat.pow_succ', List.cons_append]
    rfl

theorem bigEndian_concat (bytes : List UInt8) (b : UInt8) :
    bigEndian (bytes ++ [b]) = bigEndian bytes * 256 + b.toNat := by
  simp [bigEndian]

/-- The values of the bytes are the digits of their number in base 256, the last one first. -/
theorem bigEndian_eq_ofDigits (bytes : List UInt8) :
    bigEndian bytes = Nat.ofDigits 256 (bytes.map UInt8.toNat).reverse := by
  rw [Nat.ofDigits_eq_foldr, List.foldr_reverse, List.foldl_map, bigEndian]
  congr 1
  funext n b
  simp [Nat.mul_comm, Nat.add_comm]

theorem bigEndian_bytesOf_eq_mod (width n : Nat) :
    bigEndian (bytesOf width n) = n % 256 ^ width := by
  induction width generalizing n with
  | zero => simp [bytesOf, bigEndian, Nat.mod_one]
  | succ width ih =>
    have hbyte : (UInt8.ofNat n).toNat = n % 256 := by simp
    rw [bytesOf, bigEndian_concat, ih, hbyte, Nat.pow_succ', Nat.mod_mul]
    omega

/-- A number that the bytes are enough for is read back. -/
theorem bigEndian_bytesOf {width n : Nat} (h : n < 256 ^ width) :
    bigEndian (bytesOf width n) = n := by
  rw [bigEndian_bytesOf_eq_mod, Nat.mod_eq_of_lt h]

end TraceAudit.Memory
