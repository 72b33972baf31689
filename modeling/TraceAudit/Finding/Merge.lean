import TraceAudit.Finding.Basic
import TraceAudit.Text.Search
import TraceAudit.Value.Display

/-!
# Merging of findings

Detectors and other tools may report one defect twice. Findings are told apart by their rule and
their place: the frame that the evidence names, or else contract and function, or else the rule
itself. Findings of detectors are always listed. A finding of another tool is listed only if it is
the first with its key; otherwise it is folded into the finding that came first with this key.

Findings are held in a pool and denoted by their position there, so one finding can be added more
than once, and what is folded into it shows wherever it is listed.

A place is text made of what the evidence holds, and not all of that can be written: an integer may
have too many digits, a value may be nested too deeply. Adding a finding begins with its key
(`Finding.mergeKey?`) and fails where the key does. What it does with a key that can be written is
said by operations that do not fail (`Merger.addDetected`, `Merger.addStatic`).
-/

namespace TraceAudit

/-- What findings are told apart by. -/
structure MergeKey where
  rule : String
  place : String
deriving DecidableEq, Repr

namespace Finding

/-- One part of a place, if the evidence has a truthy field of that name. -/
def placePart (fields : Fields) (name : String) : String :=
  let v := fields.get name
  if v.truthy then name ++ ":" ++ v.display else ""

/-- The place that evidence names, if any: the frame, or else contract and function. -/
def place? (fields : Fields) : Option String :=
  match fields.get "frame_id" with
  | .null =>
    let place := placePart fields "contract" ++ placePart fields "function"
    if place = "" then none else some place
  | id => some ("frame:" ++ id.display)

/-- The place of a finding. -/
def place (f : Finding) : String :=
  (place? f.evidence.firstFields).getD f.rule

/-- The key of a finding. -/
def mergeKey (f : Finding) : MergeKey :=
  ⟨f.rule, f.place⟩

/-- One part of a place, if it can be written. -/
def placePart? (fields : Fields) (name : String) : Except Fault String :=
  let v := fields.get name
  if v.truthy then do return name ++ ":" ++ (← v.display?) else .ok ""

/-- The key of a finding, if its place can be written. -/
def mergeKey? (f : Finding) : Except Fault MergeKey := do
  let fields := f.evidence.firstFields
  match fields.get "frame_id" with
  | .null =>
    let contract ← placePart? fields "contract"
    let function ← placePart? fields "function"
    let place := contract ++ function
    return ⟨f.rule, if place = "" then f.rule else place⟩
  | id => do return ⟨f.rule, "frame:" ++ (← id.display?)⟩

/-- What the titles of merged findings contain. -/
def mergedMark : String := "[MERGED]"

/-- The title of a merged finding. -/
def mergedTitle (title : String) : String :=
  if Text.contains title mergedMark then title else mergedMark ++ " " ++ title

/-- Fold another finding into this one. -/
def absorb (f incoming : Finding) : Finding :=
  { f with
    severity := f.severity.highest incoming.severity
    evidence := .list (f.evidence.items ++ incoming.evidence.items)
    tags := (f.tags ++ incoming.tags).eraseDups
    title := mergedTitle f.title }

end Finding

/-- One finding folded into another, by their ids. -/
structure Merge where
  incoming : String
  existing : String
  key : MergeKey
deriving DecidableEq, Repr

/-- Findings that are being merged. -/
structure Merger where
  /-- All findings, by position. -/
  pool : List Finding := []
  /-- The positions of the listed findings. -/
  order : List Nat := []
  /-- For each key the position of the finding that came first with it. -/
  index : List (MergeKey × Nat) := []
  /-- What has been folded into what. -/
  merges : List Merge := []
deriving Inhabited

namespace Merger

/-- The listed findings. -/
def findings (m : Merger) : List Finding :=
  m.order.filterMap fun i => m.pool[i]?

/-- How many findings have been folded into others. -/
def mergedCount (m : Merger) : Nat :=
  m.merges.length

/-- The position of the finding that came first with a key. -/
def target? (m : Merger) (key : MergeKey) : Option Nat :=
  m.index.lookup key

/-- Let a position be the target of a key, unless the key has one. -/
def register (m : Merger) (key : MergeKey) (i : Nat) : Merger :=
  if (m.target? key).isSome then m else { m with index := (key, i) :: m.index }

/-- List a position. -/
def enlist (m : Merger) (i : Nat) : Merger :=
  { m with order := m.order ++ [i] }

/-- Fold one finding of the pool into another. -/
def fold (m : Merger) (existing incoming : Nat) : Merger :=
  match m.pool[incoming]? with
  | some f => { m with pool := m.pool.modify existing fun e => e.absorb f }
  | none => m

/-- Add a finding of a detector. -/
def addDetected (m : Merger) (i : Nat) : Merger :=
  match m.pool[i]? with
  | some f => (m.register f.mergeKey i).enlist i
  | none => m

/-- Add a finding of another tool. -/
def addStatic (m : Merger) (i : Nat) : Merger :=
  match m.pool[i]? with
  | some f =>
    match m.target? f.mergeKey with
    | some t =>
      let existing := ((m.pool[t]?).map Finding.id).getD ""
      { m.fold t i with merges := m.merges ++ [⟨f.id, existing, f.mergeKey⟩] }
    | none => (m.register f.mergeKey i).enlist i
  | none => m

/-- Put a finding into the pool; its position is the former size. -/
def push (m : Merger) (f : Finding) : Merger :=
  { m with pool := m.pool ++ [f] }

/-- Add new findings of detectors. -/
def insertDetected (m : Merger) (fs : List Finding) : Merger :=
  fs.foldl (fun m f => (m.push f).addDetected m.pool.length) m

/-- Add new findings of another tool. -/
def insertStatic (m : Merger) (fs : List Finding) : Merger :=
  fs.foldl (fun m f => (m.push f).addStatic m.pool.length) m

/-! ### Keys that may not be writable -/

/-- The key of a finding of the pool, if the position and the place are good. -/
def keyAt? (m : Merger) (i : Nat) : Except Fault (Option MergeKey) :=
  match m.pool[i]? with
  | some f => some <$> f.mergeKey?
  | none => .ok none

/-- Add a finding of a detector, if its key can be written. -/
def addDetected? (m : Merger) (i : Nat) : Except Fault Merger := do
  let _ ← m.keyAt? i
  return m.addDetected i

/-- Add a finding of another tool, if its key can be written. -/
def addStatic? (m : Merger) (i : Nat) : Except Fault Merger := do
  let _ ← m.keyAt? i
  return m.addStatic i

/-- Add new findings of detectors, as long as their keys can be written. -/
def insertDetected? (m : Merger) (fs : List Finding) : Except Fault Merger :=
  fs.foldlM (fun m f => (m.push f).addDetected? m.pool.length) m

/-- Add new findings of another tool, as long as their keys can be written. -/
def insertStatic? (m : Merger) (fs : List Finding) : Except Fault Merger :=
  fs.foldlM (fun m f => (m.push f).addStatic? m.pool.length) m

end Merger

/-- Merge the findings of detectors with those of other tools, whose keys can all be written. -/
def Finding.mergeAll (detected : List Finding) (sources : List (List Finding)) : List Finding :=
  (sources.foldl Merger.insertStatic (Merger.insertDetected {} detected)).findings

/-- Merge the findings of detectors with those of other tools. -/
def Finding.mergeAll? (detected : List Finding) (sources : List (List Finding)) :
    Except Fault (List Finding) := do
  let m ← Merger.insertDetected? {} detected
  return (← sources.foldlM Merger.insertStatic? m).findings

end TraceAudit
