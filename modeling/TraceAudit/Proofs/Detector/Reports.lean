import Mathlib.Data.List.Forall2
import TraceAudit.Proofs.Detector.Totality

/-!
# Reports of detectors

A detector reports hits (`Detector.Reports`) if it returns their write-ups, numbered in order, with
whatever numbers. What is to be shown of its findings is then shown of the numbered write-up of one
hit and carried over (`Detector.Reports.exists_forall₂`): there are as many findings as hits, in the
same order. Where the hits of two runs are related, so are the findings of these runs
(`Detector.pairs_of_reports`).

The detectors that look at single steps report the lists that their scans come down to, those that
walk around steps on traces whose steps carry their positions.
-/

namespace TraceAudit

variable {c : Context}

/-- What a value says under a name, null if it says nothing. -/
def Value.get (v : Value) (name : String) : Value :=
  match v with
  | .object fields => Fields.get fields name
  | _ => .null

/-- What the evidence of a finding says under a name, null if it says nothing. -/
def Finding.evidenceOf (f : Finding) (name : String) : Value :=
  f.evidence.firstFields.get name

/-- A finding aside from its number. -/
def Finding.unnumbered (f : Finding) : Finding :=
  { f with id := "" }

namespace DetectorInfo

variable {α : Type} {i : DetectorInfo} {draft : α → Draft} {hits hits' : List α}

/-- Numbered write-ups are related to their hits one by one, if each is under all numbers. -/
theorem forall₂_findings {R : α → Finding → Prop}
    (hR : ∀ a ∈ hits, ∀ id, R a (i.finding id (draft a))) (ids : IdSequence) :
    List.Forall₂ R hits (i.findings ids (hits.map draft)) := by
  induction hits generalizing ids with
  | nil => exact .nil
  | cons a hits ih =>
    rw [List.map_cons, findings_cons]
    exact .cons (hR a List.mem_cons_self _) (ih (fun b hb => hR b (List.mem_cons_of_mem a hb)) _)

/-- Numbered write-ups of related hits are related one by one, if each two are under all numbers. -/
theorem forall₂_findings_findings {S : α → α → Prop} {R : Finding → Finding → Prop}
    (hR : ∀ a b, S a b → ∀ id id', R (i.finding id (draft a)) (i.finding id' (draft b)))
    (h : List.Forall₂ S hits hits') (ids ids' : IdSequence) :
    List.Forall₂ R (i.findings ids (hits.map draft)) (i.findings ids' (hits'.map draft)) := by
  induction h generalizing ids ids' with
  | nil => exact .nil
  | cons hab _ ih =>
    rw [List.map_cons, List.map_cons, findings_cons, findings_cons]
    exact .cons (hR _ _ hab _ _) (ih _ _)

/-- What a finding says whatever its number is, it says of its draft. -/
theorem map_findings {β : Type} {g : Finding → β} {h : Draft → β}
    (hg : ∀ id d, g (i.finding id d) = h d) (ids : IdSequence) (drafts : List Draft) :
    (i.findings ids drafts).map g = drafts.map h := by
  induction drafts generalizing ids with
  | nil => rfl
  | cons d drafts ih => rw [findings_cons, List.map_cons, List.map_cons, hg, ih]

/-- Which numbers drafts get does not matter but for these numbers. -/
theorem map_unnumbered_findings (i : DetectorInfo) (ids : IdSequence) (drafts : List Draft) :
    (i.findings ids drafts).map Finding.unnumbered = drafts.map (i.finding "") :=
  map_findings (fun _ _ => rfl) ids drafts

end DetectorInfo

namespace Detector

/-- A detector returns the numbered write-ups of the given hits, whatever the numbers are. -/
def Reports {α : Type} (d : Detector) (c : Context) (draft : α → Draft) (hits : List α) : Prop :=
  ∀ ids, (d.run c ids).1.outcome = .ok (d.info.findings ids (hits.map draft))

variable {α : Type} {d : Detector} {draft : α → Draft} {hits : List α}

theorem reports_of_scan (hd : d ∈ catalogue) (hfault : (d.scan c).fault = none)
    (hdrafts : (d.scan c).drafts = hits.map draft) : d.Reports c draft hits := by
  intro ids
  rw [run_eq hd, Scan.outcome, hfault, hdrafts]

theorem reports_of_scan_eq (hd : d ∈ catalogue) (h : d.scan c = .ofDrafts (hits.map draft)) :
    d.Reports c draft hits :=
  reports_of_scan hd (congrArg Scan.fault h) (congrArg Scan.drafts h)

/-- Hits that are made from others are written up as these. -/
theorem reports_map_iff {β : Type} {g : β → α} {bs : List β} :
    d.Reports c draft (bs.map g) ↔ d.Reports c (draft ∘ g) bs := by
  rw [Reports, Reports, List.map_map]

/-- **What holds of every numbered write-up holds of the findings**, one for each hit in order. -/
theorem Reports.exists_forall₂ {R : α → Finding → Prop} (h : d.Reports c draft hits)
    (hR : ∀ a ∈ hits, ∀ id, R a (d.info.finding id (draft a))) (ids : IdSequence) :
    ∃ fs, (d.run c ids).1.outcome = .ok fs ∧ List.Forall₂ R hits fs :=
  ⟨_, h ids, DetectorInfo.forall₂_findings hR ids⟩

/-- A detector with one hit returns one finding, of which holds what holds of the write-up. -/
theorem Reports.exists_one {R : Finding → Prop} {a : α} (h : d.Reports c draft [a])
    (hR : ∀ id, R (d.info.finding id (draft a))) (ids : IdSequence) :
    ∃ f, (d.run c ids).1.outcome = .ok [f] ∧ R f := by
  obtain ⟨fs, hfs, hall⟩ := h.exists_forall₂ (R := fun _ => R) (fun b hb id => by
    rw [List.mem_singleton.mp hb]
    exact hR id) ids
  obtain ⟨f, _, hf, hrest, rfl⟩ := List.forall₂_cons_left_iff.mp hall
  cases hrest
  exact ⟨f, hfs, hf⟩

/-- A detector returns on two contexts, and what it finds on the one is related to what it finds on
the other, one by one and whatever the numbers are. -/
def Pairs (d : Detector) (c c' : Context) (R : Finding → Finding → Prop) : Prop :=
  ∀ ids ids', ∃ fs fs', (d.run c ids).1.outcome = .ok fs ∧ (d.run c' ids').1.outcome = .ok fs' ∧
    List.Forall₂ R fs fs'

/-- **What relates the write-ups of related hits relates the findings.** -/
theorem pairs_of_reports {c' : Context} {hits' : List α} {S : α → α → Prop}
    {R : Finding → Finding → Prop} (h : d.Reports c draft hits) (h' : d.Reports c' draft hits')
    (hhits : List.Forall₂ S hits hits')
    (hR : ∀ a b, S a b → ∀ id id', R (d.info.finding id (draft a)) (d.info.finding id' (draft b))) :
    d.Pairs c c' R :=
  fun ids ids' => ⟨_, _, h ids, h' ids', DetectorInfo.forall₂_findings_findings hR hhits ids ids'⟩

/-- The findings of a detector are as severe as the write-ups of its hits. -/
theorem severity_of_reports {severity : Severity} (hreports : d.Reports c draft hits)
    (hseverity : ∀ a, (draft a).severity = severity) (ids : IdSequence) :
    ∀ f ∈ (d.run c ids).1.findings, f.severity = severity := by
  intro f hf
  rw [DetectorRun.findings, hreports ids] at hf
  obtain ⟨_, hdraft, id, rfl⟩ := exists_finding_of_mem_findings hf
  obtain ⟨a, -, rfl⟩ := List.mem_map.mp hdraft
  exact hseverity a

end Detector

/-! ### The detectors -/

namespace Detector

theorem uncheckedCall_reports
    (h : ¬UncheckedCall.Unwritable c.settings.uncheckedCallWindow c.steps.toList) :
    uncheckedCall.Reports c UncheckedCall.draft
      (UncheckedCall.all c.settings.uncheckedCallWindow c.steps.toList) :=
  reports_of_scan_eq (by simp [catalogue]) (UncheckedCall.scan_of_not_unwritable h)

theorem originRead_reports (h : c.Indexed) :
    originRead.Reports c OriginRead.draft (OriginRead.all c) :=
  reports_of_scan_eq (by simp [catalogue]) (scan_originRead h)

theorem delegatecallTarget_reports (h : c.Indexed) :
    delegatecallTarget.Reports c DelegatedCall.draft (DelegatedCall.all c) :=
  reports_of_scan_eq (by simp [catalogue]) (scan_delegatecallTarget h)

theorem flatReentrancy_reports (c : Context) :
    flatReentrancy.Reports c FlatReentrancy.draft (FlatReentrancy.found c).toList :=
  reports_of_scan_eq (by simp [catalogue]) rfl

theorem arithmetic_reports_panics (h : c.Indexed) (hpanics : ArithmeticPanic.all c ≠ []) :
    arithmetic.Reports c ArithmeticPanic.draft (ArithmeticPanic.all c) := by
  obtain ⟨hfault, hdrafts⟩ := scan_arithmetic h
  exact reports_of_scan (by simp [catalogue]) hfault (hdrafts.trans (if_neg hpanics))

theorem arithmetic_reports_suspects (h : c.Indexed) (hpanics : ArithmeticPanic.all c = []) :
    arithmetic.Reports c SuspectArithmetic.draft
      (SuspectArithmetic.all c.settings.arithmeticFallbackWindow c.steps.toList) := by
  obtain ⟨hfault, hdrafts⟩ := scan_arithmetic h
  exact reports_of_scan (by simp [catalogue]) hfault (hdrafts.trans (if_pos hpanics))

/-- A detector that has nothing to scan reports nothing. -/
theorem outcome_run_of_scan_eq_empty {d : Detector} (hd : d ∈ catalogue) (h : d.scan c = {})
    (ids : IdSequence) : (d.run c ids).1.outcome = .ok [] := by
  rw [run_eq hd, h]
  rfl

theorem outcome_frameReentrancy (h : c.hasFrames = false) (ids : IdSequence) :
    (frameReentrancy.run c ids).1.outcome = .ok [] := by
  refine outcome_run_of_scan_eq_empty (by simp [catalogue]) ?_ ids
  change ExposedCall.scan c = {}
  rw [ExposedCall.scan, h]
  exact if_neg Bool.false_ne_true

theorem outcome_flatReentrancy (h : c.hasFrames = true) (ids : IdSequence) :
    (flatReentrancy.run c ids).1.outcome = .ok [] := by
  refine outcome_run_of_scan_eq_empty (by simp [catalogue]) ?_ ids
  change FlatReentrancy.scan c = {}
  rw [FlatReentrancy.scan, FlatReentrancy.found, if_pos h]
  rfl

/-- What is reported of unchecked calls; nothing where the window cannot be written. -/
theorem findings_uncheckedCall (c : Context) (ids : IdSequence) :
    (uncheckedCall.run c ids).1.findings =
      if UncheckedCall.Unwritable c.settings.uncheckedCallWindow c.steps.toList then []
      else uncheckedCall.info.findings ids
        ((UncheckedCall.all c.settings.uncheckedCallWindow c.steps.toList).map
          UncheckedCall.draft) := by
  rw [run_eq (by simp [catalogue])]
  change DetectorRun.findings ⟨_, _, (UncheckedCall.scan c).outcome _ _⟩ = _
  split_ifs with h
  · rw [UncheckedCall.scan_of_unwritable h]
    rfl
  · rw [UncheckedCall.scan_of_not_unwritable h]
    rfl

end Detector

end TraceAudit
