import TraceAudit.Fault
import TraceAudit.Numeral

/-!
# Reading JSON

A strict reader with three liberties: the words `NaN`, `Infinity` and `-Infinity` are numbers, of
fields with one name the last counts, and a numeral without fraction and exponent is an integer of
any size up to the limit of decimal numerals. Control characters inside texts, a byte order mark,
and anything behind the value other than white space are refused, and so are lists and objects that
are nested more deeply than `Value.maxDepth`.

A text is a sequence of characters here. Escapes can spell surrogates without partners, which are no
characters; they are read as the replacement character, so texts that differ in them alone are not
told apart.
-/

namespace TraceAudit.Json

open Decimal

/-- White space of the format. -/
def isSpace (c : Char) : Bool :=
  c = ' ' || c = '\t' || c = '\n' || c = '\r'

/-- Skip white space. -/
def skip (cs : List Char) : List Char :=
  cs.dropWhile isSpace

/-! ### Texts -/

/-- The value of a hexadecimal digit of ASCII. -/
def hexDigit? (c : Char) : Option Nat :=
  if c.toNat < 0x80 then Numeral.digitIn? 16 c else none

/-- The character of an escape of two characters. -/
def shortEscape? : Char → Option Nat
  | '"' => some 0x22
  | '\\' => some 0x5C
  | '/' => some 0x2F
  | 'b' => some 0x8
  | 'f' => some 0xC
  | 'n' => some 0xA
  | 'r' => some 0xD
  | 't' => some 0x9
  | _ => none

/-- The number of four hexadecimal digits. -/
def hexUnit? (a b c d : Char) : Option Nat := do
  return Numeral.ofDigits 16 [← hexDigit? a, ← hexDigit? b, ← hexDigit? c, ← hexDigit? d]

/-- The code units of a text up to its closing quote, and the rest behind the quote. -/
def units? : List Char → Option (List Nat × List Char)
  | [] => none
  | '"' :: rest => some ([], rest)
  | '\\' :: 'u' :: a :: b :: c :: d :: rest => do
    let u ← hexUnit? a b c d
    let (us, rest) ← units? rest
    return (u :: us, rest)
  | '\\' :: e :: rest => do
    let u ← shortEscape? e
    let (us, rest) ← units? rest
    return (u :: us, rest)
  | c :: rest =>
    if c.toNat < 0x20 then none
    else do
      let (us, rest) ← units? rest
      return (c.toNat :: us, rest)

/-- Join the code units of a text: a high surrogate and the low one behind it are one character. A
surrogate without partner becomes the replacement character. -/
def joinUnits : List Nat → List Char
  | [] => []
  | [u] => [charOf u]
  | u :: v :: rest =>
    if 0xD800 ≤ u ∧ u < 0xDC00 ∧ 0xDC00 ≤ v ∧ v < 0xE000 then
      Char.ofNat (0x10000 + (u - 0xD800) * 0x400 + (v - 0xDC00)) :: joinUnits rest
    else charOf u :: joinUnits (v :: rest)
where
  charOf (u : Nat) : Char :=
    if 0xD800 ≤ u ∧ u < 0xE000 then Char.ofNat 0xFFFD else Char.ofNat u

/-- Read a text behind its opening quote. -/
def readText (cs : List Char) : Except Fault (String × List Char) :=
  match units? cs with
  | some (us, rest) => .ok (String.ofList (joinUnits us), rest)
  | none => .error .unreadableJson

/-! ### Numbers -/

/-- A digit of ASCII. -/
def isDigit (c : Char) : Bool :=
  '0' ≤ c && c ≤ '9'

/-- The number that a run of digits of ASCII denotes. -/
def natOf (cs : List Char) : Nat :=
  Numeral.ofDigits 10 (cs.map fun c => c.toNat - '0'.toNat)

/-- The digits behind a point, if a point with digits follows. -/
def fraction? : List Char → Option (List Char × List Char)
  | '.' :: rest =>
    if (rest.takeWhile isDigit).isEmpty then none
    else some (rest.takeWhile isDigit, rest.dropWhile isDigit)
  | _ => none

/-- The exponent, if a mark with digits follows. -/
def exponent? : List Char → Option (Int × List Char)
  | e :: rest =>
    if e = 'e' ∨ e = 'E' then
      let (neg, digits) : Bool × List Char := match rest with
        | '-' :: ds => (true, ds)
        | '+' :: ds => (false, ds)
        | ds => (false, ds)
      let n := digits.takeWhile isDigit
      if n.isEmpty then none
      else some ((if neg then -(natOf n : Int) else natOf n), digits.dropWhile isDigit)
    else none
  | [] => none

/-- Read an unsigned number that starts with a digit. -/
def readNumber (neg : Bool) (cs : List Char) : Except Fault (Value × List Char) :=
  let whole := match cs with
    | '0' :: _ => ['0']
    | _ => cs.takeWhile isDigit
  let rest := cs.drop whole.length
  if whole.isEmpty then .error .unreadableJson
  else
    let (places, rest', hasPlaces) := match fraction? rest with
      | some (ds, r) => (ds, r, true)
      | none => ([], rest, false)
    match exponent? rest', hasPlaces with
    | some (e, rest''), _ =>
      .ok (.float (.ofDecimal neg (natOf (whole ++ places)) (e - places.length)), rest'')
    | none, true =>
      .ok (.float (.ofDecimal neg (natOf (whole ++ places)) (-(places.length : Int))), rest')
    | none, false =>
      if Numeral.maxDecimalDigits < whole.length then .error .badValue
      else
        let n : Int := natOf whole
        .ok (.int (if neg then -n else n), rest')

/-! ### Values -/

/-- The rest behind a word, if the text starts with it. -/
def word? (w : List Char) (cs : List Char) : Option (List Char) :=
  if w.isPrefixOf cs then some (cs.drop w.length) else none

/-- Read a word or a number. -/
def readAtom (cs : List Char) : Except Fault (Value × List Char) :=
  if let some rest := word? "null".toList cs then .ok (.null, rest)
  else if let some rest := word? "true".toList cs then .ok (.bool true, rest)
  else if let some rest := word? "false".toList cs then .ok (.bool false, rest)
  else if let some rest := word? "NaN".toList cs then .ok (.float Binary64.nan, rest)
  else if let some rest := word? "Infinity".toList cs then
    .ok (.float (Binary64.infinity false), rest)
  else if let some rest := word? "-Infinity".toList cs then
    .ok (.float (Binary64.infinity true), rest)
  else match cs with
    | '-' :: rest => readNumber true rest
    | _ => readNumber false cs

mutual

/-- Read a value at the start of the text, with at most `levels` lists and objects one within the
other. Every call spends fuel, and a text needs at most two calls for each of its characters. -/
def readValue : Nat → Nat → List Char → Except Fault (Value × List Char)
  | 0, _, _ => .error .unreadableJson
  | fuel + 1, levels, cs =>
    match cs with
    | '"' :: rest => do
      let (s, rest) ← readText rest
      return (.text s, rest)
    | '[' :: rest =>
      match levels with
      | 0 => .error .tooDeep
      | levels + 1 =>
        match skip rest with
        | ']' :: rest => .ok (.list [], rest)
        | rest => do
          let (items, rest) ← readItems fuel levels rest
          return (.list items, rest)
    | '\x7b' :: rest =>
      match levels with
      | 0 => .error .tooDeep
      | levels + 1 =>
        match skip rest with
        | '\x7d' :: rest => .ok (.object [], rest)
        | rest => do
          let (pairs, rest) ← readMembers fuel levels rest
          return (.object (Fields.ofPairs pairs), rest)
    | cs => readAtom cs

/-- Read the items of a list, of which there is at least one, up to the closing bracket. -/
def readItems : Nat → Nat → List Char → Except Fault (List Value × List Char)
  | 0, _, _ => .error .unreadableJson
  | fuel + 1, levels, cs => do
    let (v, rest) ← readValue fuel levels cs
    match skip rest with
    | ']' :: rest => return ([v], rest)
    | ',' :: rest =>
      let (vs, rest) ← readItems fuel levels (skip rest)
      return (v :: vs, rest)
    | _ => .error .unreadableJson

/-- Read the fields of an object, of which there is at least one, up to the closing brace. -/
def readMembers : Nat → Nat → List Char → Except Fault (List (String × Value) × List Char)
  | 0, _, _ => .error .unreadableJson
  | fuel + 1, levels, cs => do
    match cs with
    | '"' :: rest =>
      let (name, rest) ← readText rest
      match skip rest with
      | ':' :: rest =>
        let (v, rest) ← readValue fuel levels (skip rest)
        match skip rest with
        | '\x7d' :: rest => return ([(name, v)], rest)
        | ',' :: rest =>
          let (more, rest) ← readMembers fuel levels (skip rest)
          return ((name, v) :: more, rest)
        | _ => .error .unreadableJson
      | _ => .error .unreadableJson
    | _ => .error .unreadableJson

end

/-- Read a text that is one value with white space around it. -/
def read (s : String) : Except Fault Value :=
  let cs := s.toList
  match readValue (2 * cs.length + 2) Value.maxDepth (skip cs) with
  | .error fault => .error fault
  | .ok (v, rest) => if (skip rest).isEmpty then .ok v else .error .unreadableJson

end TraceAudit.Json
