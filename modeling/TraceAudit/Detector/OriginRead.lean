import TraceAudit.Detector.Basic

/-!
# Reads of the transaction's sender

Whoever authorizes by the sender of the transaction instead of the caller can be called through
another contract. Every such read is reported, and more urgently if control flow follows it in the
same frame.
-/

namespace TraceAudit

/-- A read of the transaction's sender. -/
structure OriginRead where
  read : Step
  frame : Option Int
  /-- Steps of control flow that follow closely in the same frame. -/
  controls : List Step
deriving DecidableEq, Repr

namespace OriginRead

/-- Whether a step lets an authorization take effect. -/
def isControl (s : Step) : Bool :=
  Opcode.authControls.contains s.op

/-- The positions behind a step that are looked at, those of its own frame. -/
def lookahead (c : Context) (origin : Int) : List Int :=
  (c.positions (origin + 1) (min (origin + 1 + c.settings.originControlWindow) c.steps.size)).filter
    fun i => c.frameOf i = c.frameOf origin

/-- The first steps of control flow behind a step, in the same frame. -/
def controlsAfter (c : Context) (origin : Int) : Except Fault (List Step) :=
  c.collect (fun _ s => isControl s) c.settings.maxOriginControls (lookahead c origin)

/-- The read that a step is, if it is one. -/
def ofStep (c : Context) (s : Step) : Except Fault (List OriginRead) :=
  if s.op = Opcode.origin then do
    let controls ← controlsAfter c s.index
    return [⟨s, c.frameOf s.index, controls⟩]
  else .ok []

/-- The severity of a read. -/
def severity (r : OriginRead) : Severity :=
  if r.controls.isEmpty then .low else .medium

theorem severity_eq_medium_iff {r : OriginRead} : r.severity = .medium ↔ r.controls ≠ [] := by
  rw [severity]
  cases r.controls with
  | nil => decide
  | cons s controls => simp

theorem severity_eq_low_iff {r : OriginRead} : r.severity = .low ↔ r.controls = [] := by
  rw [severity]
  cases r.controls with
  | nil => decide
  | cons s controls => simp

/-- The description of a read. -/
def description (r : OriginRead) : String :=
  let frame := (Value.ofInt? r.frame).display
  let ops := ", ".intercalate (r.controls.map Step.op)
  s!"ORIGIN opcode detected at step {r.read.index} in frame {frame}. " ++
  (if r.controls.isEmpty then ""
    else s!"Found nearby control flow ops ({ops}) suggesting auth check. ") ++
  "Using tx.origin for access control is dangerous as it can be exploited " ++
  "in delegatecall chains and cross-contract transactions."

/-- The write-up of a read. -/
def draft (r : OriginRead) : Draft where
  title := "Use of tx.origin in Access Control Logic"
  description := r.description
  evidence := [
    ("step", .int r.read.index), ("pc", .int r.read.pc), ("frame_id", .ofInt? r.frame),
    ("nearby_controls", .list (r.controls.map Step.toReference))]
  severity := r.severity

/-- What the detector of reads of the transaction's sender says about itself. -/
def info : DetectorInfo where
  id := "SWC-115-001"
  name := "Authorization through tx.origin"
  description := "Flags every ORIGIN opcode. Severity rises when a conditional jump or " ++
    "revert follows in the same frame, suggesting an authorization check."
  weakness := "SWC-115"
  rule := .originAuthorization
  severity := .low
  category := "access-control"
  recommendation := "Never use tx.origin for access control. Use msg.sender instead. If " ++
    "tx.origin is necessary, validate against authenticated context."
  tags := ["access-control", "tx-origin"]

end OriginRead

/-- The detector of reads of the transaction's sender. -/
def Detector.originRead : Detector where
  info := OriginRead.info
  detect c := c.steps.toList.flatMapM fun s =>
    OriginRead.info.makeAll OriginRead.draft (OriginRead.ofStep c s)

end TraceAudit
