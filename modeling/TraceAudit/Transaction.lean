import TraceAudit.Field
import TraceAudit.Quantity

/-!
# Transactions

What is known of the transaction that a trace belongs to: sender, target, call data and transferred
value, each of which may be missing.
-/

namespace TraceAudit

/-- A transferred value as it was reported. -/
inductive Amount where
  | text (s : String)
  | int (n : Int)
deriving DecidableEq, Repr

/-- The outer call of a trace. -/
structure Transaction where
  sender : Option String := none
  target : Option String := none
  input : Option String := none
  value : Option Amount := none
deriving DecidableEq, Repr, Inhabited

/-- The amount as hexadecimal text, if it can be read. -/
def Amount.hexText? : Amount → Option String
  | text s => Quantity.hexText? s
  | int n => some (Numeral.hex n)

/-- A transaction as it is handed over. -/
inductive TransactionSource where
  /-- A transaction that has been read before. -/
  | known (tx : Transaction)
  /-- A value that describes a transaction. -/
  | described (v : Value)

namespace Transaction

/-- What the field of the transferred value admits: text and integers as they are, and what else
counts as an integer. -/
def amount : Value → Option Amount
  | .text s => some (.text s)
  | v => (Field.integer v).map .int

/-- Read the fields of a transaction. -/
def ofFields (f : Fields) : Checked Transaction :=
  Transaction.mk
    <$> Field.withDefault f "from_address" (Field.optional Field.text) none
    <*> Field.withDefault f "to" (Field.optional Field.text) none
    <*> Field.withDefault f "input" (Field.optional Field.text) none
    <*> Field.withDefault f "value" (Field.optional amount) none

/-- Read a transaction. -/
def ofValue : Value → Except Fault Transaction :=
  Field.record ofFields

/-! ### Descriptions of a transaction

An analysis takes a transaction in other forms, too: nothing, an object, or a list of pairs. The
name `from` stands for the sender unless the sender is given by its own name. -/

/-- The fields of a description: a pair is a sequence of two, and the name of a pair must be usable
as a name. -/
def pairOf (v : Value) : Except Fault (Option String × Value) := do
  let items ← match v with
    | .list items => .ok items
    | .text s => .ok (s.toList.map fun c => Value.text (String.singleton c))
    | .object fields => .ok (fields.map fun f => Value.text f.1)
    | _ => .error .wrongKind
  match items with
  | [.list _, _] => .error .wrongKind
  | [.object _, _] => .error .wrongKind
  | [.text name, value] => return (some name, value)
  | [_, value] => return (none, value)
  | _ => .error .badValue

/-- The fields that a list of pairs sets; names that are no text name no field. -/
def fieldsOfPairs (pairs : List (Option String × Value)) : Fields :=
  Fields.ofPairs (pairs.filterMap fun p => p.1.map fun name => (name, p.2))

/-- The fields of a description. -/
def descriptionFields : Value → Except Fault Fields
  | .object fields => .ok fields
  | .list items => do return fieldsOfPairs (← items.mapM pairOf)
  | .text s => do
    return fieldsOfPairs (← (s.toList.map (Value.text ∘ String.singleton)).mapM pairOf)
  | _ => .error .wrongKind

/-- Let `from` stand for the sender. -/
def renameSender (f : Fields) : Fields :=
  if f.has "from" ∧ ¬ f.has "from_address" then
    (f.erase "from").put "from_address" (f.get "from")
  else f

/-- The transaction that a description describes. -/
def describe : Value → Except Fault Transaction
  | .null => .ok {}
  | v => do (ofFields (renameSender (← descriptionFields v))).toExcept

/-- The transaction that was handed over. -/
def ofSource : TransactionSource → Except Fault Transaction
  | .known tx => .ok tx
  | .described v => describe v

end Transaction

end TraceAudit
