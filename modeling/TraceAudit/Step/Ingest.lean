import TraceAudit.Quantity
import TraceAudit.Step.Record

/-!
# Ingestion of traces

Nodes answer a trace request with a list of objects, one for each instruction, somewhere inside of
their response. Ingestion finds that list and makes a step of each object. Stacks arrive bottom
first and are turned over once, here; steps that have been ingested before pass unchanged, but for
their index, which becomes the position.

Fields of an object may be missing or strange without harm: quantities that cannot be read are zero
and words are kept as text.
-/

namespace TraceAudit

/-- Which end of the stack a node writes first. -/
inductive StackOrder where
  | bottomFirst
  | topFirst
deriving DecidableEq, Repr, Inhabited

/-- An element of a sequence that should hold steps. -/
inductive TraceEntry where
  /-- A step that has been ingested before. -/
  | step (s : Step)
  /-- What a node wrote. -/
  | raw (v : Value)

/-- A trace as it is handed over. -/
inductive TraceSource where
  /-- A sequence of elements. -/
  | entries (es : List TraceEntry)
  /-- Any other value: a response that holds the sequence, null for no trace at all, or something
  that is no trace. -/
  | value (v : Value)

namespace Step

/-- Find the list of instructions in the response of a node. -/
def locate (response : Value) : Except Fault (List Value) :=
  match response with
  | .null => .ok []
  | .list items => .ok items
  | .object fields =>
    let logs? : Value → Option (List Value)
      | .object inner =>
        match Fields.get inner "structLogs" with
        | .list items => some items
        | _ => none
      | _ => none
    .ok (([Fields.get fields "result", Fields.get fields "tx", response].findSome? logs?).getD [])
  | v => .error (.malformedTrace (.container v.kindName))

/-- A word of a stack or memory: numbers become hexadecimal text. -/
def wordOf (v : Value) : Except Fault String :=
  match v.asInt? with
  | some n => .ok (Numeral.hex n)
  | none => v.display?

/-- The elements of a value that is used as a list: the characters of a text, the names of an
object's fields, nothing where nothing is given. -/
def elements (v : Value) : Except Fault (List Value) :=
  if !v.truthy then .ok []
  else match v with
    | .list items => .ok items
    | .text s => .ok (s.toList.map fun c => .text (String.singleton c))
    | .object fields => .ok (fields.map fun f => .text f.1)
    | _ => .error .wrongKind

/-- Put a stack into the order that steps have. -/
def orient (order : StackOrder) (words : List String) : List String :=
  match order with
  | .bottomFirst => words.reverse
  | .topFirst => words

/-- The step that an object of a trace describes. -/
def ofLog (index : Int) (log : Fields) (order : StackOrder) : Except Fault Step := do
  let stack ← (← elements (log.get "stack")).mapM wordOf
  let memory ← (← elements (log.get "memory")).mapM wordOf
  let pc ← Quantity.ofValue (log.get "pc")
  let op ← ((log.get "op").orElse (.text "UNKNOWN")).display?
  let gas ← Quantity.ofValue (log.get "gas")
  let gasCost ← Quantity.ofValue (log.get "gasCost")
  let depth ← Quantity.ofValue (log.get "depth")
  return {
    index, pc, gas, gasCost, depth
    op := Text.upper op
    stack := orient order stack
    memory }

/-- The step that a value describes at a claimed index. Only an object can be searched for fields;
the index is judged last. -/
def ofClaim (index log : Value) (order : StackOrder) : Except Fault Step :=
  match log with
  | .object fields => do
    let s ← ofLog 0 fields order
    match Field.integer index with
    | some i => return { s with index := i }
    | none => .error (.rejectedFields ["index"])
  | _ => .error .missingOperation

/-- The step of one element of a sequence. -/
def ofEntry (order : StackOrder) (position : Nat) : TraceEntry → Except Fault Step
  | .step s => .ok { s with index := position }
  | .raw (.object fields) => ofLog position fields order
  | .raw v => .error (.malformedTrace (.element position v.kindName))

/-- The steps of a sequence from a position on. -/
def ofEntriesFrom (order : StackOrder) (position : Nat) : List TraceEntry → Except Fault (List Step)
  | [] => .ok []
  | e :: rest => do
    let s ← ofEntry order position e
    let more ← ofEntriesFrom order (position + 1) rest
    return s :: more

/-- The steps of a sequence. -/
def ofEntries (order : StackOrder) (es : List TraceEntry) : Except Fault (List Step) :=
  ofEntriesFrom order 0 es

/-- The elements of a value that should be a sequence of steps. No trace is no steps; an object
counts as the sequence of its names. -/
def entriesOf : Value → Except Fault (List TraceEntry)
  | .null => .ok []
  | .list items => .ok (items.map .raw)
  | .object fields => .ok (fields.map fun f => .raw (.text f.1))
  | _ => .error (.malformedTrace .noSequence)

/-- The steps of a sequence that has been located already. -/
def ofSource (order : StackOrder) : TraceSource → Except Fault (List Step)
  | .entries es => ofEntries order es
  | .value v => do ofEntries order (← entriesOf v)

/-- Ingest a trace: an object is searched for its list of instructions first. -/
def ingest (order : StackOrder) : TraceSource → Except Fault (List Step)
  | .entries es => ofEntries order es
  | .value (.object fields) => do
    let items ← locate (.object fields)
    ofEntries order (items.map .raw)
  | .value v => ofSource order (.value v)

end Step

end TraceAudit
