import TraceAudit.Text.Case
import TraceAudit.Word

/-!
# Memory

A step's memory is a list of hexadecimal words. Each word becomes bytes on its own: it is cut or
filled up to its last sixty-four characters, and these are read in pairs. A word that cannot be
read counts as thirty-two zero bytes. Blanks may stand between the pairs, so a readable word with
blanks in it has fewer than thirty-two bytes.
-/

namespace TraceAudit.Memory

open Text

/-- The blanks that may stand between two bytes. -/
def isGap (c : Char) : Bool :=
  c = ' ' || (0x9 ≤ c.toNat && c.toNat ≤ 0xD)

/-- The value of a hexadecimal digit of ASCII. -/
def nibble? (c : Char) : Option Nat :=
  if c.toNat < 0x80 then Numeral.digitIn? 16 c else none

/-- The bytes of pairs of hexadecimal digits with blanks between them. -/
def bytesOfPairs? : List Char → Option (List UInt8)
  | [] => some []
  | [c] => if isGap c then some [] else none
  | c :: d :: rest =>
    if isGap c then bytesOfPairs? (d :: rest)
    else do
      let high ← nibble? c
      let low ← nibble? d
      let bytes ← bytesOfPairs? rest
      return UInt8.ofNat (16 * high + low) :: bytes

/-- The last sixty-four characters of a word, filled up with zeros on the left. -/
def wordChars (word : String) : List Char :=
  let digits := Word.dropMark (lowerChars word.toList)
  List.leftpad 64 '0' (digits.drop (digits.length - 64))

/-- The bytes of a word, if it can be read. -/
def wordBytes? (word : String) : Option (List UInt8) :=
  bytesOfPairs? (wordChars word)

/-- The bytes that stand for a word that cannot be read. -/
def zeroWord : List UInt8 :=
  List.replicate 32 0

/-- The bytes of a word. -/
def wordBytes (word : String) : List UInt8 :=
  (wordBytes? word).getD zeroWord

/-- The bytes of a memory. -/
def flatten (words : List String) : List UInt8 :=
  words.flatMap wordBytes

/-- The words of a memory that cannot be read. -/
def unreadable (words : List String) : List String :=
  words.filter fun w => (wordBytes? w).isNone

/-- The bytes from `offset` on, at most `size` of them. -/
def window (bytes : List UInt8) (offset size : Nat) : List UInt8 :=
  (bytes.drop offset).take size

/-- Fill bytes up with zeros at the end. -/
def padTo (size : Nat) (bytes : List UInt8) : List UInt8 :=
  bytes ++ List.replicate (size - bytes.length) 0

/-- Read `size` bytes from `offset` on. Nothing is read at a negative offset. What lies behind the
end is zero if `pad` is set, and is left away otherwise. -/
def read (words : List String) (offset size : Int) (pad : Bool) : List UInt8 :=
  if size ≤ 0 ∨ offset < 0 then []
  else
    let data := window (flatten words) offset.toNat size.toNat
    if pad then padTo size.toNat data else data

/-- Two lower case hexadecimal digits for every byte. -/
def hexChars (bytes : List UInt8) : List Char :=
  bytes.flatMap fun b => [Nat.digitChar (b.toNat / 16), Nat.digitChar (b.toNat % 16)]

/-- The hexadecimal digits of bytes as a string. -/
def hex (bytes : List UInt8) : String :=
  String.ofList (hexChars bytes)

/-- The number that bytes denote, the most significant first. -/
def bigEndian (bytes : List UInt8) : Nat :=
  bytes.foldl (fun n b => n * 256 + b.toNat) 0

end TraceAudit.Memory
