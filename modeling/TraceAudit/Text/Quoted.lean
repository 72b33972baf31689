import TraceAudit.Text.Printable

/-!
# Quoted text

Text between quotes, as it stands in messages. The quote is the apostrophe, unless the text holds
an apostrophe and no quotation mark. The quote and the backslash are escaped, line feed, carriage
return and tab have short escapes, and every other character that is not printable is written by
its code in two, four or eight hexadecimal digits.
-/

namespace TraceAudit.Text

/-- Lower case hexadecimal digits of `n`, at least `width` of them. -/
def hexPadded (width n : Nat) : List Char :=
  List.leftpad width '0' (Nat.toDigits 16 n)

/-- The escape of a character by its code. -/
def codeEscape (c : Char) : List Char :=
  if c.toNat ≤ 0xFF then '\\' :: 'x' :: hexPadded 2 c.toNat
  else if c.toNat ≤ 0xFFFF then '\\' :: 'u' :: hexPadded 4 c.toNat
  else '\\' :: 'U' :: hexPadded 8 c.toNat

/-- One character between quotes `q`. -/
def quotedChar (q c : Char) : List Char :=
  if c = q ∨ c = '\\' then ['\\', c]
  else if c = '\n' then ['\\', 'n']
  else if c = '\r' then ['\\', 'r']
  else if c = '\t' then ['\\', 't']
  else if isPrintable c then [c]
  else codeEscape c

/-- The quote that a text is written with. -/
def quoteFor (cs : List Char) : Char :=
  if '\'' ∈ cs ∧ '"' ∉ cs then '"' else '\''

/-- The text between quotes. -/
def quotedChars (cs : List Char) : List Char :=
  quoteFor cs :: cs.flatMap (quotedChar (quoteFor cs)) ++ [quoteFor cs]

/-- The string between quotes. -/
def quoted (s : String) : String :=
  String.ofList (quotedChars s.toList)

end TraceAudit.Text
