import TraceAudit.Text.Blank
import TraceAudit.Text.Digit

/-!
# Integers as text

Reading is lenient: white space around the numeral, one sign, single underscores between digits
and decimal digits of any script are accepted. In base sixteen the digits may follow one more `0x`,
and one underscore may follow that. Decimal numerals are limited to `maxDecimalDigits` digits;
hexadecimal ones are not. Writing uses the lower case digits of ASCII, and the same limit holds
where a numeral is written into a text (`isWritable`).
-/

namespace TraceAudit.Numeral

open Text

/-- A longer decimal numeral is neither read nor written. -/
def maxDecimalDigits : Nat := 4300

/-- The value of a digit that is admitted in the base. -/
def digitIn? (base : Nat) (c : Char) : Option Nat :=
  (digitValue? c).filter fun d => d < base

/-- The digit values of a non-empty run of digits with single underscores between them. -/
def digits? (base : Nat) : List Char → Option (List Nat)
  | [] => none
  | [c] => (digitIn? base c).map fun d => [d]
  | c :: '_' :: rest => (digitIn? base c).bind fun d => (digits? base rest).map (d :: ·)
  | c :: rest => (digitIn? base c).bind fun d => (digits? base rest).map (d :: ·)

/-- The number with the given digits, the most significant first. -/
def ofDigits (base : Nat) (ds : List Nat) : Nat :=
  ds.foldl (fun n d => n * base + d) 0

/-- The rest of a hexadecimal numeral behind its `0x`, if there is one. -/
def dropHexMark : List Char → List Char
  | z :: x :: rest =>
    if decimalDigit? z = some 0 ∧ (x = 'x' ∨ x = 'X') then
      match rest with
      | '_' :: more => more
      | more => more
    else z :: x :: rest
  | cs => cs

/-- The value of an unsigned hexadecimal numeral. -/
def hexMagnitude? (cs : List Char) : Option Nat :=
  (digits? 16 (dropHexMark cs)).map (ofDigits 16)

/-- The value of an unsigned decimal numeral. -/
def decimalMagnitude? (cs : List Char) : Option Nat :=
  (digits? 10 cs).bind fun ds =>
    if ds.length ≤ maxDecimalDigits then some (ofDigits 10 ds) else none

/-- Read a sign and then a magnitude. -/
def signed (magnitude? : List Char → Option Nat) : List Char → Option Int
  | '-' :: cs => (magnitude? cs).map fun n => -(n : Int)
  | '+' :: cs => (magnitude? cs).map fun n => (n : Int)
  | cs => (magnitude? cs).map fun n => (n : Int)

/-- Read a hexadecimal numeral. -/
def readHex? (cs : List Char) : Option Int :=
  signed hexMagnitude? (trim isWhite cs)

/-- Read a decimal numeral. -/
def readDecimal? (cs : List Char) : Option Int :=
  signed decimalMagnitude? (trim isWhite cs)

/-- The hexadecimal text of an integer: a minus sign if it is negative, `0x`, and its digits. -/
def hexChars (n : Int) : List Char :=
  (if n < 0 then ['-'] else []) ++ '0' :: 'x' :: Nat.toDigits 16 n.natAbs

/-- The hexadecimal text of an integer as a string. -/
def hex (n : Int) : String :=
  String.ofList (hexChars n)

/-- The decimal digits of `n`, at least `width` of them. -/
def decimalPadded (width n : Nat) : List Char :=
  List.leftpad width '0' (Nat.toDigits 10 n)

/-- The decimal text of an integer, however long it is. -/
def decimal (n : Int) : String :=
  String.ofList ((if n < 0 then ['-'] else []) ++ Nat.toDigits 10 n.natAbs)

/-- Whether the decimal text of an integer keeps to the limit. -/
def isWritable (n : Int) : Bool :=
  (Nat.toDigits 10 n.natAbs).length ≤ maxDecimalDigits

end TraceAudit.Numeral
