import TraceAudit.Numeral
import TraceAudit.Text.Case

/-!
# Stack and memory words

A word is hexadecimal text as a tracer wrote it: with or without `0x`, in either case, of any
length. This module gives its three readings, as an integer, as the canonical sixty-four digits
and as an address. Only the integer reading decides whether a word is readable; the other two work
on the text itself, so they see the digits that were written.
-/

namespace TraceAudit.Word

open Text

/-- The digits of a lower case word behind its `0x`, if it has one. -/
def dropMark : List Char → List Char
  | '0' :: 'x' :: rest => rest
  | cs => cs

/-- The lower case text of a word without surrounding blanks and without `0x`. -/
def bare (cs : List Char) : List Char :=
  dropMark (lowerChars (strip cs))

/-- The integer that a word denotes; a word without digits denotes zero. -/
def intOfChars? (cs : List Char) : Option Int :=
  let digits := bare cs
  if digits.isEmpty then some 0 else Numeral.readHex? digits

/-- The integer that a word denotes, if the word is readable. -/
def toInt? (word : String) : Option Int :=
  intOfChars? word.toList

/-- The word as lower case digits, filled up with zeros to sixty-four. -/
def normalize (word : String) : String :=
  String.ofList (List.leftpad 64 '0' (dropMark (lowerChars word.toList)))

/-- The last forty characters, filled up with zeros on the left. -/
def lowForty (cs : List Char) : List Char :=
  List.leftpad 40 '0' (cs.drop (cs.length - 40))

/-- The address in the low twenty bytes of a word, if the word is readable. -/
def address? (word : String) : Option String :=
  let digits := bare word.toList
  (intOfChars? digits).map fun _ => String.ofList ('0' :: 'x' :: lowForty digits)

end TraceAudit.Word
