import TraceAudit.Decimal.Binary64
import TraceAudit.Numeral

/-!
# Floating point text

The default text of a floating point number: its shortest digits, written positionally with a point
while the leading digit stands between `10 ^ (-4)` and `10 ^ 15`, and otherwise with an exponent of
at least two digits. An integral value keeps one zero behind the point.
-/

namespace TraceAudit.Decimal

/-- The words that stand for the values without digits. -/
structure SpecialWords where
  nan : String
  infinity : String

/-- Words of plain text. -/
def plainWords : SpecialWords := ⟨"nan", "inf"⟩

/-- Words of JSON text. -/
def jsonWords : SpecialWords := ⟨"NaN", "Infinity"⟩

/-- The exponent of scientific notation: a sign and at least two digits. -/
def exponentChars (e : Int) : List Char :=
  (if e < 0 then '-' else '+') :: Numeral.decimalPadded 2 e.natAbs

/-- Digits with a point behind the first `whole` of them; zeros fill up on either side. -/
def pointed (digits : List Char) (whole : Int) : List Char :=
  if whole ≤ 0 then '0' :: '.' :: (List.replicate (-whole).toNat '0' ++ digits)
  else
    let n := whole.toNat
    let front := (digits ++ List.replicate (n - digits.length) '0').take n
    let back := digits.drop n
    front ++ '.' :: (if back.isEmpty then ['0'] else back)

/-- The text of the decimal `n * 10 ^ e`. -/
def decimalChars (n : Nat) (e : Int) : List Char :=
  let digits := Nat.toDigits 10 n
  let lead := (digits.length : Int) + e - 1
  if -4 ≤ lead ∧ lead < 16 then pointed digits (lead + 1)
  else
    let mantissa := match digits with
      | d :: rest => if rest.isEmpty then [d] else d :: '.' :: rest
      | [] => []
    mantissa ++ 'e' :: exponentChars lead

namespace Binary64

/-- The text of a number, with the given words where there are no digits. -/
def displayWith (words : SpecialWords) (x : Binary64) : String :=
  let sign := if x.negative then "-" else ""
  if x.isNaN then words.nan
  else if !x.isFinite then sign ++ words.infinity
  else if x.isZero then sign ++ "0.0"
  else
    let (n, e) := x.shortest
    sign ++ String.ofList (decimalChars n e)

/-- The default text of a number. -/
def display (x : Binary64) : String :=
  x.displayWith plainWords

end Binary64

end TraceAudit.Decimal
