import TraceAudit.Detector.Context
import TraceAudit.Finding.Basic
import TraceAudit.IdSequence
import TraceAudit.Note
import TraceAudit.Rule

/-!
# Detectors

A detector is a program that looks at a context and reports findings. It writes a finding up as a
draft; the draft becomes a finding as soon as the next identifier is drawn for it, by this number
and by what the detector says about all of its findings. A detector may also come to an end by a
fault: what it found before has used up identifiers but is not reported.

Detectors run one after the other over one context and one sequence of identifiers; no detector
sees what another one found.
-/

namespace TraceAudit

/-- What a detector says about itself and puts into its findings. -/
structure DetectorInfo where
  id : String
  name : String
  description : String
  /-- The entry of the weakness in the classification of weaknesses. -/
  weakness : String
  rule : Rule
  /-- The severity of its findings where nothing else is said. -/
  severity : Severity
  category : String
  recommendation : String
  tags : List String
deriving Repr

/-- A detector's information as a record. -/
def DetectorInfo.toValue (i : DetectorInfo) : Value :=
  .object [
    ("DETECTOR_ID", .text i.id), ("NAME", .text i.name), ("DESCRIPTION", .text i.description),
    ("SWC_ID", .text i.weakness), ("CATEGORY", .text i.category),
    ("RECOMMENDATION", .text i.recommendation), ("RULE", .text i.rule.tag),
    ("SEVERITY", .text i.severity.name), ("TAGS", .ofTexts i.tags)]

/-- A finding before it is numbered. -/
structure Draft where
  title : String
  description : String
  evidence : Fields
  severity : Severity
  /-- Tags besides those of the detector. -/
  tags : List String := []
deriving Inhabited

/-- Make a finding of a draft and an identifier. -/
def DetectorInfo.finding (i : DetectorInfo) (id : String) (draft : Draft) : Finding where
  id := id
  rule := i.rule.tag
  severity := draft.severity
  title := draft.title
  description := draft.description
  evidence := .object draft.evidence
  recommendation := i.recommendation
  tags := (i.tags ++ draft.tags).eraseDups

/-! ### Programs -/

/-- What a running detector changes: the identifiers still to come, and the notes so far. -/
structure Ledger where
  ids : IdSequence
  notes : List Note := []

/-- A program of a detector. A fault ends it, but what it has drawn and noted before stays. -/
abbrev DetectM := ExceptT Fault (StateM Ledger)

namespace DetectM

/-- Run a program. -/
def runOn {α : Type} (p : DetectM α) (l : Ledger) : Except Fault α × Ledger :=
  (p.run.run l).run

/-- Draw the next identifier. -/
def drawId : DetectM String :=
  modifyGet fun l => (l.ids.next.1, { l with ids := l.ids.next.2 })

/-- Leave notes. -/
def note (notes : List Note) : DetectM Unit :=
  modify fun l => { l with notes := l.notes ++ notes }

/-- Look at each element of a list with what stands behind it, one after the other, and put together
what is found. -/
def alongTails {α : Type} (look : α → List α → DetectM (List Finding)) :
    List α → DetectM (List Finding)
  | [] => return []
  | a :: rest => do
    let found ← look a rest
    let more ← alongTails look rest
    return found ++ more

end DetectM

namespace DetectorInfo

/-- Make a finding of a draft with the next identifier. -/
def make (i : DetectorInfo) (draft : Draft) : DetectM Finding := do
  let id ← DetectM.drawId
  return i.finding id draft

/-- Make findings of hits that are written up by `draft`, unless looking for them came to a
fault. -/
def makeAll {α : Type} (i : DetectorInfo) (draft : α → Draft) (hits : Except Fault (List α)) :
    DetectM (List Finding) := do
  (← hits).mapM fun hit => i.make (draft hit)

end DetectorInfo

/-- A detector. -/
structure Detector where
  info : DetectorInfo
  detect : Context → DetectM (List Finding)

/-- What running a detector came to: its notes, and its findings or the fault that ended it. -/
structure DetectorRun where
  detector : String
  notes : List Note
  outcome : Except Fault (List Finding)

namespace Detector

/-- Run a detector, and tell what is left of the sequence of identifiers. -/
def run (d : Detector) (c : Context) (ids : IdSequence) : DetectorRun × IdSequence :=
  let (outcome, ledger) := (d.detect c).runOn { ids }
  (⟨d.info.id, ledger.notes, outcome⟩, ledger.ids)

/-- Run detectors one after the other. -/
def runAll (c : Context) (ids : IdSequence) : List Detector → List DetectorRun × IdSequence
  | [] => ([], ids)
  | d :: rest =>
    let (r, ids) := d.run c ids
    let (more, ids) := runAll c ids rest
    (r :: more, ids)

end Detector

namespace DetectorRun

/-- The findings of a run; a detector that was ended by a fault has none. -/
def findings (r : DetectorRun) : List Finding :=
  match r.outcome with
  | .ok fs => fs
  | .error _ => []

/-- Whether a fault ended the detector. -/
def failed (r : DetectorRun) : Bool :=
  match r.outcome with
  | .ok _ => false
  | .error _ => true

/-- The notes of a run: those of the detector, and one on what came of it unless it is nothing. -/
def allNotes (r : DetectorRun) : List Note :=
  r.notes ++ match r.outcome with
    | .ok [] => []
    | .ok fs => [.detectorFound r.detector fs.length]
    | .error e => [.detectorFailed r.detector e]

end DetectorRun

end TraceAudit
