import TraceAudit.Fault
import TraceAudit.Numeral

/-!
# Identifiers

A run numbers its findings from one on: `VUL-0001`, `VUL-0002`, and so on. A sequence is its label,
the least number of digits and how many identifiers it has issued, so the identifiers to come are
known from the start.
-/

namespace TraceAudit

/-- A sequence of identifiers. -/
structure IdSequence where
  label : String
  /-- The least number of digits. -/
  width : Nat := 4
  /-- How many identifiers have been issued. -/
  issued : Nat := 0
deriving DecidableEq, Repr

namespace IdSequence

/-- The `n`-th identifier. -/
def nth (s : IdSequence) (n : Nat) : String :=
  s.label ++ "-" ++ String.ofList (Numeral.decimalPadded s.width n)

/-- The sequence after `count` more identifiers. -/
def skip (s : IdSequence) (count : Nat) : IdSequence :=
  { s with issued := s.issued + count }

/-- The next identifier, and the sequence behind it. -/
def next (s : IdSequence) : String × IdSequence :=
  (s.nth (s.issued + 1), s.skip 1)

/-- The next `count` identifiers. -/
def draw (s : IdSequence) (count : Nat) : List String :=
  (List.range count).map fun k => s.nth (s.issued + k + 1)

/-- Skip some identifiers and draw some more, with any width; a negative width writes no
identifier. -/
def drawWith (label : String) (width : Int) (skipped count : Nat) :
    Except Fault (List String × Nat) :=
  if width < 0 ∧ 0 < skipped + count then .error .badValue
  else
    let s := IdSequence.skip { label, width := width.toNat } skipped
    .ok (s.draw count, (s.skip count).issued)

@[simp] theorem length_draw (s : IdSequence) (count : Nat) : (s.draw count).length = count := by
  simp [draw]

/-- Drawing in two goes is drawing at once. -/
theorem draw_add (s : IdSequence) (m n : Nat) :
    s.draw (m + n) = s.draw m ++ (s.skip m).draw n := by
  simp [draw, skip, nth, List.range_add, Nat.add_assoc]

end IdSequence

end TraceAudit
