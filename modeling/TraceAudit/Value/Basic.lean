import TraceAudit.Decimal.Binary64

/-!
# Values

Trace responses, reports of other tools and the evidence of findings are data of no fixed shape:
null, booleans, integers of any size, floating point numbers, texts, lists and objects. An object
keeps its fields in the order in which they were first set, with distinct names.
-/

namespace TraceAudit

open Decimal

/-- Data of no fixed shape. -/
inductive Value where
  | null
  | bool (b : Bool)
  | int (n : Int)
  | float (x : Binary64)
  | text (s : String)
  | list (items : List Value)
  | object (fields : List (String × Value))
deriving Inhabited

/-- How many levels of nesting a recursive walk over a value goes down before it gives up. Readers
and writers of values keep to it; how much of it is left to them depends on who calls them, and here
it is all of it. -/
def Value.maxDepth : Nat := 1000

/-- The fields of an object in order. -/
abbrev Fields := List (String × Value)

namespace Fields

/-- The value of a field, if the object has it. -/
def get? (fields : Fields) (name : String) : Option Value :=
  fields.lookup name

/-- The value of a field, null if the object lacks it. -/
def get (fields : Fields) (name : String) : Value :=
  (fields.get? name).getD .null

/-- Whether the object has the field. -/
def has (fields : Fields) (name : String) : Bool :=
  (fields.get? name).isSome

/-- Set a field: a new field goes to the end, an old one keeps its place. -/
def put (fields : Fields) (name : String) (value : Value) : Fields :=
  match fields with
  | [] => [(name, value)]
  | (n, v) :: rest => if n = name then (n, value) :: rest else (n, v) :: put rest name value

/-- Remove a field. -/
def erase (fields : Fields) (name : String) : Fields :=
  fields.filter fun f => f.1 != name

/-- The object with the given fields set one after the other. -/
def ofPairs (pairs : List (String × Value)) : Fields :=
  pairs.foldl (fun fields p => fields.put p.1 p.2) []

end Fields

namespace Value

/-- Null, false, zero and whatever is empty do not count as given. -/
def truthy : Value → Bool
  | null => false
  | bool b => b
  | int n => n != 0
  | float x => !x.isZero
  | text s => s != ""
  | list items => !items.isEmpty
  | object fields => !fields.isEmpty

/-- The name of a value's kind in messages. -/
def kindName : Value → String
  | null => "NoneType"
  | bool _ => "bool"
  | int _ => "int"
  | float _ => "float"
  | text _ => "str"
  | list _ => "list"
  | object _ => "dict"

/-- The integer that a value is; a boolean is zero or one. -/
def asInt? : Value → Option Int
  | bool b => some (if b then 1 else 0)
  | int n => some n
  | _ => none

/-- The value itself if it is given, and else the other. -/
def orElse (v other : Value) : Value :=
  if v.truthy then v else other

/-- An integer, or null where there is none. -/
def ofInt? (n : Option Int) : Value :=
  n.elim null int

/-- A text, or null where there is none. -/
def ofText? (s : Option String) : Value :=
  s.elim null text

/-- A list of integers. -/
def ofInts (ns : List Int) : Value :=
  list (ns.map int)

/-- A list of texts. -/
def ofTexts (ss : List String) : Value :=
  list (ss.map text)

end Value

/-! ### Fields after setting one -/

theorem Fields.get?_put_self (fields : Fields) (name : String) (value : Value) :
    (fields.put name value).get? name = some value := by
  induction fields with
  | nil => simp [Fields.put, Fields.get?]
  | cons f rest ih =>
    obtain ⟨n, v⟩ := f
    by_cases h : n = name
    · simp [Fields.put, Fields.get?, h]
    · have h' : (name == n) = false := by simpa using fun e => h e.symm
      simpa [Fields.put, Fields.get?, h, h', List.lookup_cons] using ih

theorem Fields.get?_put_of_ne {other name : String} (h : other ≠ name) (fields : Fields)
    (value : Value) : (fields.put name value).get? other = fields.get? other := by
  induction fields with
  | nil => simp [Fields.put, Fields.get?, h]
  | cons f rest ih =>
    obtain ⟨n, v⟩ := f
    simp only [Fields.get?] at ih
    by_cases hn : n = name
    · subst hn
      have h' : (other == n) = false := by simpa using h
      simp [Fields.put, Fields.get?, List.lookup_cons, h']
    · simp [Fields.put, Fields.get?, hn, List.lookup_cons, ih]

end TraceAudit
