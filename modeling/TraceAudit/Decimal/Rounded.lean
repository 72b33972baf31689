import TraceAudit.Decimal.Display

/-!
# Rounded decimal text

Decimal text of a floating point number with a given precision, rounded half to even from its exact
value: positional with so many places, in scientific notation with so many digits behind the
leading one, or general, which chooses between the two by the place of the leading digit and drops
zeros at the end. A point without digits behind it is written on demand only.
-/

namespace TraceAudit.Decimal

/-- A whole number with the last `places` of its digits behind a point. -/
def placeChars (keepPoint : Bool) (n places : Nat) : List Char :=
  let digits := Numeral.decimalPadded (places + 1) n
  let whole := digits.take (digits.length - places)
  if places = 0 then (if keepPoint then whole ++ ['.'] else whole)
  else whole ++ '.' :: digits.drop (digits.length - places)

/-- The exponent of scientific notation behind a mantissa. -/
def scientificChars (keepPoint : Bool) (n places : Nat) (e : Int) : List Char :=
  placeChars keepPoint n places ++ 'e' :: exponentChars e

/-- Drop zeros at the end of digits behind a point, and the point if nothing is left behind it. -/
def dropTrailingZeros (cs : List Char) : List Char :=
  if '.' ∈ cs then
    let kept := (cs.reverse.dropWhile (· = '0')).reverse
    if kept.getLast? = some '.' then kept.dropLast else kept
  else cs

namespace Binary64

/-- The magnitude with so many places behind the point. -/
def fixedChars (keepPoint : Bool) (precision : Nat) (x : Binary64) : List Char :=
  let (num, den) := x.ratio
  placeChars keepPoint (roundToUnit num den (-(precision : Int))) precision

/-- The magnitude in scientific notation. -/
def exponentialChars (keepPoint : Bool) (precision : Nat) (x : Binary64) : List Char :=
  let (num, den) := x.ratio
  let (n, e) := roundToDigits num den (precision + 1)
  scientificChars keepPoint n precision e

/-- The magnitude with so many digits in all, at least one. Zeros at the end are kept together with
the point. -/
def generalChars (keepPoint : Bool) (precision : Nat) (x : Binary64) : List Char :=
  let count := max precision 1
  let (num, den) := x.ratio
  let (n, e) := roundToDigits num den count
  let trim (cs : List Char) : List Char := if keepPoint then cs else dropTrailingZeros cs
  if -4 ≤ e ∧ e < count then
    let places := ((count : Int) - 1 - e).toNat
    trim (placeChars keepPoint n places)
  else trim (placeChars keepPoint n (count - 1)) ++ 'e' :: exponentChars e

end Binary64

end TraceAudit.Decimal
