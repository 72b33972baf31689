/-!
# Decimal expansions of non-negative fractions

Exact arithmetic behind every number that is written in decimal: rounding a fraction to an integer,
half to even, the position of its leading decimal digit, and its expansion to a given number of
places or of significant digits. A fraction is a numerator and a positive denominator.
-/

namespace TraceAudit.Decimal

/-- The integer nearest to `num / den`, of two nearest ones the even. -/
def roundHalfEven (num den : Nat) : Nat :=
  let q := num / den
  let r := num % den
  if 2 * r < den then q
  else if den < 2 * r then q + 1
  else q + q % 2

/-- The fraction `num / den` times a power of ten, as numerator and denominator. -/
def scaleTen (num den : Nat) (e : Int) : Nat × Nat :=
  if 0 ≤ e then (num * Nat.pow 10 e.toNat, den) else (num, den * Nat.pow 10 (-e).toNat)

/-- The least `k` below the fuel with `den ≤ num * 10 ^ k`. -/
def leadSearch (num den : Nat) : Nat → Nat → Nat
  | 0, k => k
  | fuel + 1, k => if den ≤ num * Nat.pow 10 k then k else leadSearch num den fuel (k + 1)

/-- The power of ten of the leading digit: the `e` with `10 ^ e ≤ num / den < 10 ^ (e + 1)`, for a
positive fraction that is not below `10 ^ (-400)`. -/
def leadExponent (num den : Nat) : Int :=
  if den ≤ num then ((Nat.toDigits 10 (num / den)).length : Int) - 1
  else -(leadSearch num den 400 1 : Nat)

/-- The fraction rounded to a multiple of `10 ^ e`, counted in that unit. -/
def roundToUnit (num den : Nat) (e : Int) : Nat :=
  let (n, d) := scaleTen num den (-e)
  roundHalfEven n d

/-- The fraction rounded to `count` significant digits: these digits as a number, and the power of
ten of the first of them. Rounding up to the next power of ten moves the exponent. -/
def roundToDigits (num den count : Nat) : Nat × Int :=
  if num = 0 then (0, 0)
  else
    let e := leadExponent num den
    let n := roundToUnit num den (e - (count : Int) + 1)
    if Nat.pow 10 count ≤ n then (n / 10, e + 1) else (n, e)

end TraceAudit.Decimal
