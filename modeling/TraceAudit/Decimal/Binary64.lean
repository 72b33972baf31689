import TraceAudit.Decimal.Ratio

/-!
# Binary floating point of 64 bits

A number is its bit pattern. Its value is a sign times `significand * 2 ^ exponent` with integers,
so reading a decimal and writing one are exact integer arithmetic. Reading rounds to the nearest
number, half to even; the shortest text has the fewest digits that read back as the same number
and, among these, the digits nearest to it.
-/

namespace TraceAudit.Decimal

/-- A floating point number of 64 bits by its bit pattern: sign, eleven bits of exponent,
fifty-two bits of fraction. -/
structure Binary64 where
  bits : UInt64
deriving DecidableEq, Repr

namespace Binary64

/-- The sign bit. -/
def negative (x : Binary64) : Bool :=
  Nat.pow 2 63 ≤ x.bits.toNat

/-- The exponent field. -/
def exponentField (x : Binary64) : Nat :=
  x.bits.toNat / Nat.pow 2 52 % Nat.pow 2 11

/-- The fraction field. -/
def fraction (x : Binary64) : Nat :=
  x.bits.toNat % Nat.pow 2 52

/-- Neither infinite nor a NaN. -/
def isFinite (x : Binary64) : Bool :=
  x.exponentField != 2047

/-- Not a number. -/
def isNaN (x : Binary64) : Bool :=
  x.exponentField == 2047 && x.fraction != 0

/-- Positive or negative zero. -/
def isZero (x : Binary64) : Bool :=
  x.exponentField == 0 && x.fraction == 0

/-- The integer that the power of two multiplies. -/
def significand (x : Binary64) : Nat :=
  if x.exponentField = 0 then x.fraction else Nat.pow 2 52 + x.fraction

/-- The exponent of the power of two. -/
def exponent (x : Binary64) : Int :=
  (if x.exponentField = 0 then 1 else (x.exponentField : Int)) - 1075

/-- The magnitude of a finite number as a fraction. -/
def ratio (x : Binary64) : Nat × Nat :=
  if 0 ≤ x.exponent then (x.significand * Nat.pow 2 x.exponent.toNat, 1)
  else (x.significand, Nat.pow 2 (-x.exponent).toNat)

/-- The number with the given sign and the bit pattern below the sign bit. -/
def ofMagnitudeBits (neg : Bool) (n : Nat) : Binary64 :=
  ⟨UInt64.ofNat ((if neg then Nat.pow 2 63 else 0) + n)⟩

/-- Infinity with the given sign. -/
def infinity (neg : Bool) : Binary64 :=
  ofMagnitudeBits neg (2047 * Nat.pow 2 52)

/-- The NaN that the word for it is read as. -/
def nan : Binary64 :=
  ofMagnitudeBits false (2047 * Nat.pow 2 52 + Nat.pow 2 51)

/-- The least exponent that gives `num / den` a significand below `2 ^ 53`, not below the exponent
of the subnormal numbers. -/
def exponentFor (num den : Nat) : Int :=
  let guess : Int := (num.log2 : Int) - (den.log2 : Int) - 53
  let q := if fits guess then guess else guess + 1
  max q (-1074)
where
  fits (e : Int) : Bool :=
    if 0 ≤ e then num < Nat.pow 2 53 * den * Nat.pow 2 e.toNat
    else num * Nat.pow 2 (-e).toNat < Nat.pow 2 53 * den

/-- The number nearest to `num / den`, half to even. -/
def ofRatio (neg : Bool) (num den : Nat) : Binary64 :=
  if num = 0 then ofMagnitudeBits neg 0
  else
    let e := exponentFor num den
    let n := if 0 ≤ e then roundHalfEven num (den * Nat.pow 2 e.toNat)
      else roundHalfEven (num * Nat.pow 2 (-e).toNat) den
    let carried := n = Nat.pow 2 53
    let n' := if carried then Nat.pow 2 52 else n
    let e' := if carried then e + 1 else e
    if n' < Nat.pow 2 52 then ofMagnitudeBits neg n'
    else if 971 < e' then infinity neg
    else ofMagnitudeBits neg ((e' + 1075).toNat * Nat.pow 2 52 + (n' - Nat.pow 2 52))

/-- The number nearest to `digits * 10 ^ e`. Decimals far outside the range are decided by the
place of their leading digit alone. -/
def ofDecimal (neg : Bool) (digits : Nat) (e : Int) : Binary64 :=
  let place := ((Nat.toDigits 10 digits).length : Int) + e
  if digits = 0 then ofMagnitudeBits neg 0
  else if 310 < place then infinity neg
  else if place < -330 then ofMagnitudeBits neg 0
  else
    let (num, den) := scaleTen digits 1 e
    ofRatio neg num den

/-- The integer part, towards zero, of a finite number. -/
def truncate? (x : Binary64) : Option Int :=
  if x.isFinite then
    let (num, den) := x.ratio
    let n : Int := (num / den : Nat)
    some (if x.negative then -n else n)
  else none

/-- The integer that a finite number without fraction is. -/
def toInt? (x : Binary64) : Option Int :=
  let (num, den) := x.ratio
  if num % den = 0 then x.truncate? else none

/-! ### Shortest text -/

/-- Twice the significand's interval in quarter units: the numbers strictly between `lower / 4` and
`upper / 4`, in units of the last place, read back as `x`; the ends do if the significand is even.
Below a power of two the lower neighbour is only half as far. -/
def quarterInterval (x : Binary64) : Nat × Nat :=
  let m := x.significand
  (4 * m - (if m = Nat.pow 2 52 ∧ 1 < x.exponentField then 1 else 2), 4 * m + 2)

/-- Whether the decimal `n * 10 ^ e` reads back as the magnitude of `x`. -/
def readsBack (x : Binary64) (n : Nat) (e : Int) : Bool :=
  let (lower, upper) := x.quarterInterval
  let (a, b) := scaleTen n 1 e
  -- compare `a / b` with `lower * 2 ^ exponent / 4` and with `upper * 2 ^ exponent / 4`
  let up := if 0 ≤ x.exponent then Nat.pow 2 x.exponent.toNat else 1
  let down := if 0 ≤ x.exponent then 1 else Nat.pow 2 (-x.exponent).toNat
  let value := 4 * a * down
  let low := lower * up * b
  let high := upper * up * b
  if x.significand % 2 = 0 then low ≤ value && value ≤ high else low < value && value < high

/-- The nearer of the two neighbours of the magnitude on the grid of `10 ^ e`, of those that read
back. -/
def neighbour? (x : Binary64) (e : Int) : Option Nat :=
  let (num, den) := x.ratio
  let (n, d) := scaleTen num den (-e)
  let low := n / d
  let near := roundHalfEven n d
  let far := if near = low then low + 1 else low
  if x.readsBack near e then some near
  else if x.readsBack far e then some far
  else none

/-- Search for the least number of digits, from `count` on, for which a neighbour reads back. -/
def shortestFrom (x : Binary64) (lead : Int) : Nat → Nat → Nat × Int
  | 0, count => (x.significand, lead - count + 1)
  | fuel + 1, count =>
    let e := lead - (count : Int) + 1
    match x.neighbour? e with
    | some n => (n, e)
    | none => shortestFrom x lead fuel (count + 1)

/-- Drop trailing zeros of `n * 10 ^ e`. -/
def dropZeros : Nat → Nat → Int → Nat × Int
  | 0, n, e => (n, e)
  | fuel + 1, n, e => if n ≠ 0 ∧ n % 10 = 0 then dropZeros fuel (n / 10) (e + 1) else (n, e)

/-- The shortest decimal `n * 10 ^ e` that reads back as the magnitude of a finite number. -/
def shortest (x : Binary64) : Nat × Int :=
  if x.significand = 0 then (0, 0)
  else
    let (num, den) := x.ratio
    let (n, e) := x.shortestFrom (leadExponent num den) 17 1
    dropZeros 20 n e

end Binary64

end TraceAudit.Decimal
