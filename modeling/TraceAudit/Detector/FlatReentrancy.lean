import TraceAudit.Detector.Basic

/-!
# Reentrancy in a flat trace

Where no frames are known, the first external call counts as exposed behind which storage is
written soon, at the depth of the call or above. Only the first such pair is reported.
-/

namespace TraceAudit

/-- An external call and a storage write behind it. -/
structure FlatReentrancy where
  call : Step
  store : Step
deriving DecidableEq, Repr

namespace FlatReentrancy

/-- Whether a step writes storage no deeper than a call. -/
def exposes (call store : Step) : Bool :=
  store.op = Opcode.storageWrite && store.depth ≤ call.depth

/-- The first external call with such a write in a window behind it, and the first such write. -/
def first? (window : Nat) : List Step → Option FlatReentrancy
  | [] => none
  | s :: rest =>
    match if s.isExternalCall then (rest.take window).find? (exposes s) else none with
    | some store => some ⟨s, store⟩
    | none => first? window rest

/-- The write-up. -/
def draft (r : FlatReentrancy) : Draft where
  title := "Potential Reentrancy: External Call Before State Update (legacy)"
  description :=
    s!"External call at step {r.call.index} ({r.call.op}) followed by state " ++
    s!"update (SSTORE) at step {r.store.index}. Attacker callback may " ++
    "exploit state inconsistency. (No frame data available; using legacy detection.)"
  evidence := [
    ("pattern", .text "state_update_after_external_call (legacy)"),
    ("call_step", .int r.call.index), ("call_op", .text r.call.op),
    ("call_depth", .int r.call.depth), ("sstore_step", .int r.store.index),
    ("sstore_depth", .int r.store.depth), ("steps_between", .int (r.store.index - r.call.index))]
  severity := .high

/-- What the detector of reentrancy where no frames are known says about itself. -/
def info : DetectorInfo where
  id := "SWC-107-002"
  name := "Reentrancy: External Call Before State Update (Legacy)"
  description := "Without frame data, flags the first external call followed within a " ++
    "bounded window by a storage write at the same or shallower depth."
  weakness := "SWC-107"
  rule := .reentrancyInFlatTrace
  severity := .high
  category := "reentrancy"
  recommendation := "Use checks-effects-interactions pattern. Emit events before external " ++
    "calls. Consider reentrancy guards (OpenZeppelin)."
  tags := ["reentrancy", "legacy"]

/-- What is found in a trace without frames. -/
def detect (c : Context) : DetectM (List Finding) := do
  match first? c.settings.reentrancyFallbackWindow c.steps.toList with
  | some r => return [← info.make r.draft]
  | none => return []

end FlatReentrancy

/-- The detector of reentrancy where no frames are known. -/
def Detector.flatReentrancy : Detector where
  info := FlatReentrancy.info
  detect c := if c.hasFrames then pure [] else FlatReentrancy.detect c

end TraceAudit
