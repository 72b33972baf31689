import TraceAudit.Decimal.Rounded
import TraceAudit.Fault
import TraceAudit.Value.Display

/-!
# Templates of messages

A message may be a template with places for arguments. A place is a percent sign, flags, a width, a
precision after a point and a letter for the form in which the argument is written; width and
precision may be taken from the arguments by an asterisk. A letter for the size of a number may
stand before the form and means nothing. Two percent signs side by side are one.

Templates are read character by character, so the first defect counts, be it in the template or in
an argument. Arguments that are left over are a defect, too.
-/

namespace TraceAudit.Log.Template

open Decimal Text

/-- How an argument is written: the flags, the width and the precision of a place. -/
structure Style where
  left : Bool := false
  plus : Bool := false
  blank : Bool := false
  alternate : Bool := false
  zero : Bool := false
  width : Nat := 0
  precision : Option Nat := none
deriving DecidableEq, Repr

/-- A written argument before it is filled up to its width. Only numbers have a sign and a mark of
their base, and are filled up with zeros. -/
structure Piece where
  numeric : Bool := false
  sign : List Char := []
  mark : List Char := []
  body : List Char
deriving DecidableEq, Repr

/-! ### Writing one argument -/

/-- The sign of a number. -/
def signOf (style : Style) (negative : Bool) : List Char :=
  if negative then ['-'] else if style.plus then ['+'] else if style.blank then [' '] else []

/-- Fill a piece up to its width. -/
def Piece.fill (style : Style) (p : Piece) : List Char :=
  let missing := style.width - (p.sign.length + p.mark.length + p.body.length)
  let written := p.sign ++ p.mark ++ p.body
  if style.left then written ++ List.replicate missing ' '
  else if style.zero && p.numeric then p.sign ++ p.mark ++ List.replicate missing '0' ++ p.body
  else List.replicate missing ' ' ++ written

/-- A text, cut to the precision. -/
def textPiece (style : Style) (cs : List Char) : Piece :=
  { body := match style.precision with
      | some n => cs.take n
      | none => cs }

/-- A text with everything beyond ASCII escaped by its code. -/
def asciiChars (cs : List Char) : List Char :=
  cs.flatMap fun c => if c.toNat < 0x80 then [c] else codeEscape c

/-- The integer that an argument is in the decimal forms; a fraction is cut off. -/
def decimalArgument : Value → Except Fault Int
  | .float x =>
    match x.truncate? with
    | some n => .ok n
    | none => .error (if x.isNaN then .badValue else .overflow)
  | v =>
    match v.asInt? with
    | some n => .ok n
    | none => .error .wrongKind

/-- The integer that an argument is in the other forms. -/
def integerArgument (v : Value) : Except Fault Int :=
  match v.asInt? with
  | some n => .ok n
  | none => .error .wrongKind

/-- The digits of an integer in a base, as many as the precision asks for. -/
def integerPiece (style : Style) (base : Nat) (mark : List Char) (n : Int) : Piece :=
  { numeric := true
    sign := signOf style (n < 0)
    mark := if style.alternate then mark else []
    body := List.leftpad (style.precision.getD 0) '0' (Nat.toDigits base n.natAbs) }

/-- A piece in upper case. -/
def Piece.upper (p : Piece) : Piece :=
  { p with mark := p.mark.map Char.toUpper, body := p.body.map Char.toUpper }

/-- The number that an argument is in the floating point forms. -/
def floatArgument : Value → Except Fault Binary64
  | .float x => .ok x
  | v =>
    match v.asInt? with
    | some n =>
      let x := Binary64.ofRatio (n < 0) n.natAbs 1
      if x.isFinite then .ok x else .error .overflow
    | none => .error .wrongKind

/-- A floating point number in one of the three notations. -/
def floatPiece (style : Style) (write : Bool → Nat → Binary64 → List Char) (x : Binary64) : Piece :=
  { numeric := true
    sign := signOf style (x.negative && !x.isNaN)
    body :=
      if x.isNaN then "nan".toList
      else if !x.isFinite then "inf".toList
      else write style.alternate (style.precision.getD 6) x }

/-- The character that an argument is. -/
def charArgument : Value → Except Fault Char
  | .text s =>
    match s.toList with
    | [c] => .ok c
    | _ => .error .wrongKind
  | v => do
    let n ← integerArgument v
    if 0 ≤ n ∧ n < 0x110000 then return Char.ofNat n.toNat else .error .overflow

/-- Write an argument in the form of a letter. -/
def write (style : Style) (form : Char) (v : Value) : Except Fault Piece :=
  match form with
  | 's' => .ok (textPiece style v.display.toList)
  | 'r' => .ok (textPiece style v.literal.toList)
  | 'a' => .ok (textPiece style (asciiChars v.literal.toList))
  | 'd' | 'i' | 'u' => integerPiece style 10 [] <$> decimalArgument v
  | 'o' => integerPiece style 8 ['0', 'o'] <$> integerArgument v
  | 'x' => integerPiece style 16 ['0', 'x'] <$> integerArgument v
  | 'X' => (fun n => (integerPiece style 16 ['0', 'x'] n).upper) <$> integerArgument v
  | 'f' => floatPiece style Binary64.fixedChars <$> floatArgument v
  | 'F' => (fun x => (floatPiece style Binary64.fixedChars x).upper) <$> floatArgument v
  | 'e' => floatPiece style Binary64.exponentialChars <$> floatArgument v
  | 'E' => (fun x => (floatPiece style Binary64.exponentialChars x).upper) <$> floatArgument v
  | 'g' => floatPiece style Binary64.generalChars <$> floatArgument v
  | 'G' => (fun x => (floatPiece style Binary64.generalChars x).upper) <$> floatArgument v
  | 'c' => (fun c => { body := [c] }) <$> charArgument v
  | _ => .error .badValue

/-! ### Reading a template -/

/-- Where the reading of a template stands. -/
inductive Stage where
  /-- Outside of places. -/
  | plain
  /-- Right behind a percent sign. -/
  | opened
  /-- Among the flags of a place. -/
  | flags (style : Style)
  /-- In the digits of a width. -/
  | width (style : Style)
  /-- Behind a width. -/
  | widthDone (style : Style)
  /-- Right behind a point. -/
  | point (style : Style)
  /-- In the digits of a precision. -/
  | precision (style : Style)
  /-- Behind a precision. -/
  | precisionDone (style : Style)
  /-- Behind the letter for a size. -/
  | sized (style : Style)
deriving DecidableEq, Repr

/-- The state of the reading: what has been written so far, piece by piece with the latest first,
and the arguments that are left. -/
structure State where
  stage : Stage := .plain
  written : List (List Char) := []
  args : List Value

/-- Larger widths are refused. -/
def maxWidth : Nat := Nat.pow 2 63 - 1

/-- Larger precisions are refused. -/
def maxPrecision : Nat := Nat.pow 2 31 - 1

/-- Go on to a stage. -/
def State.go (s : State) (stage : Stage) : State :=
  { s with stage }

/-- Take an argument. -/
def State.take (s : State) : Except Fault (Value × State) :=
  match s.args with
  | v :: rest => .ok (v, { s with args := rest })
  | [] => .error .wrongKind

/-- The value of a digit of ASCII. -/
def digit? (c : Char) : Option Nat :=
  if '0' ≤ c ∧ c ≤ '9' then some (c.toNat - '0'.toNat) else none

/-- Close a place by its form. -/
def close (s : State) (style : Style) (form : Char) : Except Fault State := do
  let (v, s) ← s.take
  let p ← write style form v
  return { s with stage := .plain, written := p.fill style :: s.written }

/-- A character where the letter for a size may stand. -/
def atSize (s : State) (style : Style) (c : Char) : Except Fault State :=
  if c = 'h' ∨ c = 'l' ∨ c = 'L' then .ok (s.go (.sized style)) else close s style c

/-- A character where a point may stand. -/
def atPoint (s : State) (style : Style) (c : Char) : Except Fault State :=
  if c = '.' then .ok (s.go (.point { style with precision := some 0 })) else atSize s style c

/-- A character where a digit of the width may stand. -/
def atWidth (s : State) (style : Style) (c : Char) : Except Fault State :=
  match digit? c with
  | some d =>
    let width := style.width * 10 + d
    if maxWidth < width then .error .badValue else .ok (s.go (.width { style with width }))
  | none => atPoint s style c

/-- The width that an argument gives; a negative one stands for a flag, too. -/
def Style.withWidth (style : Style) (n : Int) : Except Fault Style :=
  if maxWidth < n.natAbs then .error .overflow
  else .ok { style with width := n.natAbs, left := style.left || n < 0 }

/-- A character where flags may stand. -/
def atFlags (s : State) (style : Style) (c : Char) : Except Fault State :=
  match c with
  | '-' => .ok (s.go (.flags { style with left := true }))
  | '+' => .ok (s.go (.flags { style with plus := true }))
  | ' ' => .ok (s.go (.flags { style with blank := true }))
  | '#' => .ok (s.go (.flags { style with alternate := true }))
  | '0' => .ok (s.go (.flags { style with zero := true }))
  | '*' => do
    let (v, s) ← s.take
    let style ← style.withWidth (← integerArgument v)
    return s.go (.widthDone style)
  | _ => atWidth s style c

/-- A character where a digit of the precision may stand. -/
def atPrecision (s : State) (style : Style) (c : Char) : Except Fault State :=
  match digit? c with
  | some d =>
    let n := style.precision.getD 0 * 10 + d
    if maxPrecision < n then .error .badValue
    else .ok (s.go (.precision { style with precision := some n }))
  | none => atSize s style c

/-- The first character of a precision. -/
def atPrecisionStart (s : State) (style : Style) (c : Char) : Except Fault State :=
  if c = '*' then do
    let (v, s) ← s.take
    let n ← integerArgument v
    if maxPrecision < n.natAbs then .error .overflow
    else return s.go (.precisionDone { style with precision := some n.toNat })
  else atPrecision s style c

/-- The character right behind a percent sign. A name in parentheses would need arguments by
name. -/
def atOpened (s : State) (c : Char) : Except Fault State :=
  if c = '%' then .ok { s with stage := .plain, written := ['%'] :: s.written }
  else if c = '(' then .error .wrongKind
  else atFlags s {} c

/-- Read one character. -/
def step (s : State) (c : Char) : Except Fault State :=
  match s.stage with
  | .plain => .ok (if c = '%' then s.go .opened else { s with written := [c] :: s.written })
  | .opened => atOpened s c
  | .flags style => atFlags s style c
  | .width style => atWidth s style c
  | .widthDone style => atPoint s style c
  | .point style => atPrecisionStart s style c
  | .precision style => atPrecision s style c
  | .precisionDone style => atSize s style c
  | .sized style => close s style c

/-- What has been written when the template ends. -/
def State.finish (s : State) : Except Fault String :=
  match s.stage, s.args with
  | .plain, [] => .ok (String.ofList s.written.reverse.flatten)
  | .plain, _ :: _ => .error .wrongKind
  | _, _ => .error .badValue

/-- Fill a template with arguments. -/
def fill (template : String) (args : List Value) : Except Fault String := do
  State.finish (← template.toList.foldlM step { args })

end TraceAudit.Log.Template
