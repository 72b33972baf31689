import TraceAudit.Detector.Catalogue
import TraceAudit.Proofs.Detector.Scan

/-!
# The scans of the detectors

Every detector of this library follows a scan (`Detector.follows_scan`): its hits are found without
regard to numbers and written up in order, and its program does nothing besides. What a run of it
comes to is then told by the scan alone (`Detector.run_of_follows`).

The detector of unchecked calls is ended by its first hit if the window has too many digits to be
written (`UncheckedCall.Unwritable`), and the detector of arithmetic looks for halts only where its
first loop returned nothing.
-/

namespace TraceAudit

open DetectM

variable {c : Context}

/-! ### Hits -/

/-- The unchecked calls of a trace. -/
def UncheckedCall.all (window : Nat) : List Step → List UncheckedCall
  | [] => []
  | s :: rest =>
    if isUnchecked window s rest then ⟨s, window⟩ :: all window rest else all window rest

/-- The arithmetic steps of a trace with a halt in failure in a window behind them, each with the
first such halt. -/
def SuspectArithmetic.all (window : Nat) : List Step → List SuspectArithmetic
  | [] => []
  | s :: rest => ((haltBehind? window s rest).map (mk s)).toList ++ all window rest

namespace ExposedCall

/-- The exposed calls of a frame. -/
def ofFrame (c : Context) (frame : Frame) : List ExposedCall :=
  let writes := c.writesOf (some frame.id)
  if writes.isEmpty then [] else (callsOf c frame).filterMap (ofCall? c frame writes)

/-- The exposed calls of all frames. -/
def all (c : Context) : List ExposedCall :=
  c.frames.flatMap (ofFrame c)

/-- All that is reported for a call. -/
def drafts (e : ExposedCall) : List Draft :=
  (if e.isOpen then [e.lateWriteDraft] else []) ++
    e.repeated.map fun g => e.repeatedDraft g.1 g.2

end ExposedCall

/-! ### Unchecked calls -/

namespace UncheckedCall

variable {window : Nat} {s : Step} {steps rest : List Step}

/-- There are unchecked calls, and the window that their write-ups tell has too many digits. -/
def Unwritable (window : Nat) (steps : List Step) : Prop :=
  Numeral.isWritable window = false ∧ all window steps ≠ []

instance (window : Nat) (steps : List Step) : Decidable (Unwritable window steps) :=
  inferInstanceAs (Decidable (_ ∧ _))

/-- The scan of a trace. -/
def scan (c : Context) : Scan :=
  if Unwritable c.settings.uncheckedCallWindow c.steps.toList then { fault := some .badValue }
  else .ofDrafts ((all c.settings.uncheckedCallWindow c.steps.toList).map draft)

theorem scan_of_unwritable (h : Unwritable c.settings.uncheckedCallWindow c.steps.toList) :
    scan c = { fault := some .badValue } := by
  rw [scan, if_pos h]

theorem scan_of_not_unwritable (h : ¬Unwritable c.settings.uncheckedCallWindow c.steps.toList) :
    scan c =
      .ofDrafts ((all c.settings.uncheckedCallWindow c.steps.toList).map draft) := by
  rw [scan, if_neg h]

/-- What is drafted is an unchecked call. -/
theorem exists_of_mem_scan {draft : Draft} (h : draft ∈ (scan c).drafts) :
    ∃ u ∈ all c.settings.uncheckedCallWindow c.steps.toList, u.draft = draft := by
  rw [scan] at h
  split at h
  · exact nomatch h
  · exact List.mem_map.mp h

theorem all_cons_of_isUnchecked (h : isUnchecked window s rest = true) :
    all window (s :: rest) = ⟨s, window⟩ :: all window rest := by
  rw [all, if_pos h]

theorem all_cons_of_not_isUnchecked (h : ¬isUnchecked window s rest = true) :
    all window (s :: rest) = all window rest := by
  rw [all, if_neg h]

theorem follows_detectAt_of_not_isUnchecked (h : ¬isUnchecked window s rest = true) :
    (detectAt window s rest).Follows info {} := by
  rw [detectAt, if_neg h]
  exact follows_nil

/-- With a window that can be written, each unchecked call is written up. -/
theorem follows_alongTails_of_isWritable (h : Numeral.isWritable window = true)
    (steps : List Step) : Follows (alongTails (detectAt window) steps) info
      (.ofDrafts ((all window steps).map draft)) := by
  induction steps with
  | nil => exact follows_alongTails_nil _
  | cons s rest ih =>
    by_cases hs : isUnchecked window s rest = true
    · have hdraft : draft? ⟨s, window⟩ = .ok (draft ⟨s, window⟩) := if_pos h
      have hfirst : Follows (detectAt window s rest) info (.ofDrafts [draft ⟨s, window⟩]) := by
        rw [detectAt, if_pos hs, hdraft]
        exact follows_make info _
      rw [all_cons_of_isUnchecked hs]
      exact hfirst.alongTails_cons ih
    · rw [all_cons_of_not_isUnchecked hs]
      exact (follows_detectAt_of_not_isUnchecked hs).alongTails_cons ih

/-- With a window that cannot be written, the first unchecked call ends the detector. -/
theorem follows_alongTails_of_not_isWritable (h : ¬Numeral.isWritable window = true)
    (steps : List Step) : Follows (alongTails (detectAt window) steps) info
      (if all window steps = [] then {} else { fault := some .badValue }) := by
  induction steps with
  | nil => exact follows_alongTails_nil _
  | cons s rest ih =>
    by_cases hs : isUnchecked window s rest = true
    · have hdraft : draft? ⟨s, window⟩ = .error .badValue := if_neg h
      have hfirst : Follows (detectAt window s rest) info { fault := some .badValue } := by
        rw [detectAt, if_pos hs, hdraft]
        exact follows_throw _
      rw [all_cons_of_isUnchecked hs, if_neg (List.cons_ne_nil _ _)]
      exact hfirst.alongTails_cons ih
    · rw [all_cons_of_not_isUnchecked hs]
      exact (follows_detectAt_of_not_isUnchecked hs).alongTails_cons ih

theorem follows_scan (c : Context) : (Detector.uncheckedCall.detect c).Follows info (scan c) := by
  by_cases h : Numeral.isWritable c.settings.uncheckedCallWindow = true
  · have hwritable : ¬Unwritable c.settings.uncheckedCallWindow c.steps.toList := fun hun =>
      absurd h (Bool.eq_false_iff.mp hun.1)
    rw [scan_of_not_unwritable hwritable]
    exact follows_alongTails_of_isWritable h _
  · have hfollows := follows_alongTails_of_not_isWritable h c.steps.toList
    by_cases hall : all c.settings.uncheckedCallWindow c.steps.toList = []
    · rw [if_pos hall] at hfollows
      rw [scan_of_not_unwritable fun hun => hun.2 hall, hall]
      exact hfollows
    · rw [if_neg hall] at hfollows
      rw [scan_of_unwritable ⟨Bool.eq_false_iff.mpr h, hall⟩]
      exact hfollows

end UncheckedCall

/-! ### Reentrancy -/

namespace ExposedCall

/-- The scan of a trace, if it has frames. -/
def scan (c : Context) : Scan :=
  if c.hasFrames then .ofDrafts ((all c).flatMap drafts) else {}

/-- What is drafted is drafted of an exposed call. -/
theorem exists_of_mem_scan {draft : Draft} (h : draft ∈ (scan c).drafts) :
    ∃ e ∈ all c, draft ∈ e.drafts := by
  rw [scan] at h
  split at h
  · exact List.mem_flatMap.mp h
  · exact nomatch h

theorem follows_detectCall (e : ExposedCall) :
    (detectCall e).Follows info (.ofDrafts e.drafts) := by
  have hrepeated := follows_mapM_make info (fun g => e.repeatedDraft g.1 g.2) e.repeated
  rw [detectCall, drafts]
  split
  · exact (follows_make info e.lateWriteDraft).append hrepeated
  · exact follows_nil.append hrepeated

theorem follows_detectFrame (c : Context) (frame : Frame) :
    (detectFrame c frame).Follows info (.ofDrafts ((ofFrame c frame).flatMap drafts)) := by
  rw [detectFrame, ofFrame]
  split
  · exact follows_nil
  · rw [List.filterMap_eq_flatMap_toList, List.flatMap_assoc, ← Scan.forEach_ofDrafts]
    refine Follows.flatMapM fun call _ => ?_
    cases ofCall? c frame (c.writesOf (some frame.id)) call with
    | none => exact follows_nil
    | some e =>
      rw [Option.toList_some, List.flatMap_singleton]
      exact follows_detectCall e

theorem follows_scan (c : Context) : (Detector.frameReentrancy.detect c).Follows info (scan c) := by
  change (if c.hasFrames then c.frames.flatMapM (detectFrame c) else pure []).Follows info (scan c)
  rw [scan]
  split
  · have hframes := Follows.flatMapM fun frame (_ : frame ∈ c.frames) => follows_detectFrame c frame
    rw [Scan.forEach_ofDrafts, ← List.flatMap_assoc] at hframes
    exact hframes
  · exact follows_nil

end ExposedCall

namespace FlatReentrancy

/-- What is found in a context: nothing where there are frames. -/
def found (c : Context) : Option FlatReentrancy :=
  if c.hasFrames then none
  else first? c.settings.reentrancyFallbackWindow c.steps.toList

/-- The scan of a trace. -/
def scan (c : Context) : Scan :=
  .ofDrafts ((found c).toList.map draft)

theorem follows_scan (c : Context) : (Detector.flatReentrancy.detect c).Follows info (scan c) := by
  change (if c.hasFrames then pure [] else detect c).Follows info (scan c)
  rw [scan, found]
  split
  · exact follows_nil
  · rw [detect]
    cases first? c.settings.reentrancyFallbackWindow c.steps.toList with
    | none => exact follows_nil
    | some r => exact follows_make info r.draft

end FlatReentrancy

/-! ### Delegated calls and reads of the sender -/

/-- The scan of a trace. -/
def DelegatedCall.scan (c : Context) : Scan :=
  .forEach c.steps.toList fun s => .ofHits draft (ofStep c s)

theorem DelegatedCall.follows_scan (c : Context) :
    (Detector.delegatecallTarget.detect c).Follows info (scan c) :=
  Follows.flatMapM fun s _ => follows_makeAll info draft (ofStep c s)

/-- The scan of a trace. -/
def OriginRead.scan (c : Context) : Scan :=
  .forEach c.steps.toList fun s => .ofHits draft (ofStep c s)

theorem OriginRead.follows_scan (c : Context) :
    (Detector.originRead.detect c).Follows info (scan c) :=
  Follows.flatMapM fun s _ => follows_makeAll info draft (ofStep c s)

/-! ### Arithmetic -/

/-- The scan of one step. -/
def ArithmeticPanic.scanStep (c : Context) (s : Step) : Scan :=
  Scan.andThen { notes := notes c s } (.ofHits draft (ofStep c s))

/-- The scan of a trace. -/
def ArithmeticPanic.scan (c : Context) : Scan :=
  .forEach c.steps.toList (scanStep c)

theorem ArithmeticPanic.follows_scan (c : Context) :
    (c.steps.toList.flatMapM (detectAt c)).Follows Detector.arithmeticInfo (scan c) :=
  Follows.flatMapM fun s _ => (follows_makeAll _ draft (ofStep c s)).note (notes c s)

/-- The scan of a trace. -/
def SuspectArithmetic.scan (c : Context) : Scan :=
  .ofDrafts ((all c.settings.arithmeticFallbackWindow c.steps.toList).map draft)

theorem SuspectArithmetic.follows_detectAt (window : Nat) (s : Step) (rest : List Step) :
    (detectAt window s rest).Follows Detector.arithmeticInfo
      (.ofDrafts (((haltBehind? window s rest).map (mk s)).toList.map draft)) := by
  rw [detectAt]
  cases haltBehind? window s rest with
  | none => exact follows_nil
  | some halt => exact follows_make _ _

theorem SuspectArithmetic.follows_alongTails (window : Nat) (steps : List Step) :
    (alongTails (detectAt window) steps).Follows Detector.arithmeticInfo
      (.ofDrafts ((all window steps).map draft)) := by
  induction steps with
  | nil => exact follows_alongTails_nil _
  | cons s rest ih =>
    rw [all, List.map_append]
    exact (follows_detectAt window s rest).alongTails_cons ih

/-- The scan for arithmetic out of range: panics, and if there are none, halts behind arithmetic. -/
def scanArithmetic (c : Context) : Scan :=
  (ArithmeticPanic.scan c).orElse (SuspectArithmetic.scan c)

theorem follows_scanArithmetic (c : Context) :
    (Detector.arithmetic.detect c).Follows Detector.arithmeticInfo (scanArithmetic c) :=
  (ArithmeticPanic.follows_scan c).orElse (SuspectArithmetic.follows_alongTails _ c.steps.toList)

/-! ### All detectors -/

/-- The scan for a rule; there is no detector of missing access control. -/
def Rule.scan (c : Context) : Rule → Scan
  | reentrancyInFrame => ExposedCall.scan c
  | reentrancyInFlatTrace => FlatReentrancy.scan c
  | uncheckedCall => UncheckedCall.scan c
  | originAuthorization => OriginRead.scan c
  | delegatecallTarget => DelegatedCall.scan c
  | arithmetic => scanArithmetic c
  | accessControl => {}

namespace Detector

variable {d : Detector} {s : Scan}

/-- The scan of a detector, which its rule tells. -/
def scan (d : Detector) (c : Context) : Scan :=
  d.info.rule.scan c

/-- **Every detector of this library follows its scan.** -/
theorem follows_scan (hd : d ∈ catalogue) (c : Context) :
    (d.detect c).Follows d.info (d.scan c) := by
  simp only [catalogue, List.mem_cons, List.not_mem_nil, or_false] at hd
  rcases hd with rfl | rfl | rfl | rfl | rfl | rfl
  · exact follows_scanArithmetic c
  · exact UncheckedCall.follows_scan c
  · exact ExposedCall.follows_scan c
  · exact FlatReentrancy.follows_scan c
  · exact DelegatedCall.follows_scan c
  · exact OriginRead.follows_scan c

/-- **A run of a program that follows a scan** is told by the scan. -/
theorem run_of_follows (h : (d.detect c).Follows d.info s) (ids : IdSequence) :
    d.run c ids = (⟨d.info.id, s.notes, s.outcome d.info ids⟩, ids.skip s.drafts.length) := by
  rw [run, h]
  rfl

end Detector

end TraceAudit
