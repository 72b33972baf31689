import TraceAudit.Proofs.Detector.Reports

/-!
# Control flow behind reads of the sender

The detector of authorization through the sender of the transaction looks at the steps behind each
read until it has found enough, and passes over steps of other frames. What it lists is said here by
the indices of the steps: of the control flow in the window behind a read, in its frame, the first
steps (`OriginRead.controlsBehind`). Steps of other frames do not count, so the bodies of calls in
between take up room in the window but none in the list, and a list is only empty if the window has
no such step.

The main statement is `reads_reported_of_indexed`.
-/

namespace TraceAudit

variable {c : Context} {s : Step}

namespace OriginRead

/-- The steps of control flow in the window behind a step, in the same frame. -/
def controlsBehind (c : Context) (s : Step) : List Step :=
  (c.between (s.index + 1) (s.index + 1 + c.settings.originControlWindow)).filter fun t =>
    c.frameOf t.index = c.frameOf s.index ∧ t.op ∈ Opcode.authControls

/-- **The steps that a walk collects are those of the window.** -/
theorem controlsNear_eq_controlsBehind (h : c.Indexed) (hs : s ∈ c.steps.toList) :
    controlsNear c s.index = controlsBehind c s := by
  have hbounds := h.index_bounds hs
  have hwindow : c.stepsAt (c.positions (s.index + 1)
      (min (s.index + 1 + c.settings.originControlWindow) c.steps.size)) =
        c.between (s.index + 1) (s.index + 1 + c.settings.originControlWindow) := by
    rw [h.stepsAt_positions (by omega), h.between_min_size]
  rw [controlsNear, lookahead, h.stepsAt_filter, hwindow, List.filter_filter, controlsBehind]
  refine List.filter_congr fun t _ => ?_
  rw [isControl, Bool.and_comm, Bool.decide_and, List.contains_eq_mem]

/-! ### The report -/

/-- **What a finding says of a read**: where it is, the first steps of control flow behind it, and
whether there are any. -/
structure ReportedBy (c : Context) (s : Step) (f : Finding) : Prop where
  step : f.evidenceOf "step" = .int s.index
  nearby_controls : f.evidenceOf "nearby_controls" =
    .list (((controlsBehind c s).take c.settings.maxOriginControls).map Step.toReference)
  medium : f.severity = .medium ↔ controlsBehind c s ≠ []
  low : f.severity = .low ↔ controlsBehind c s = []

theorem reportedBy_finding (h : c.Indexed) (hcap : 1 ≤ c.settings.maxOriginControls)
    (hs : s ∈ c.steps.toList) (id : String) :
    ReportedBy c s (Detector.originRead.info.finding id (atStep c s).draft) := by
  have hcontrols : (atStep c s).controls =
      (controlsBehind c s).take c.settings.maxOriginControls :=
    congrArg (List.take _) (controlsNear_eq_controlsBehind h hs)
  -- a list that may have an entry is only empty if there is nothing to list
  have hempty : (atStep c s).controls = [] ↔ controlsBehind c s = [] := by
    rw [hcontrols, List.take_eq_nil_iff]
    exact or_iff_right (Nat.ne_of_gt hcap)
  exact {
    step := rfl
    nearby_controls := by
      rw [← hcontrols]
      rfl
    medium := severity_eq_medium_iff.trans (not_congr hempty)
    low := severity_eq_low_iff.trans hempty }

end OriginRead

/-- **Every read of the sender is reported, with the control flow behind it.** On a trace whose
steps carry their positions, with whatever frames, there is one finding for each read, in the order
of the trace. -/
theorem reads_reported_of_indexed (c : Context) (h : c.Indexed)
    (hcap : 1 ≤ c.settings.maxOriginControls) (ids : IdSequence) :
    ∃ fs, (Detector.originRead.run c ids).1.outcome = .ok fs ∧
      List.Forall₂ (OriginRead.ReportedBy c)
        (c.steps.toList.filter fun s => s.op = Opcode.origin) fs := by
  have hreports := Detector.reports_map_iff.mp (Detector.originRead_reports h)
  refine hreports.exists_forall₂ (fun s hs id => ?_) ids
  exact OriginRead.reportedBy_finding h hcap (List.mem_filter.mp hs).1 id

/-- A read of the sender, a call with a jump inside, three jumps behind it, and another read. -/
def guardedTrace : List Step := [
  ⟨0, 0, "ORIGIN", 900, 2, 1, [], []⟩,
  ⟨1, 1, "CALL", 890, 300, 1, ["0x64", "0xbeef", "0x0", "0x0", "0x0", "0x0", "0x0"], []⟩,
  ⟨2, 0, "JUMPI", 290, 10, 2, [], []⟩,
  ⟨3, 1, "STOP", 280, 0, 2, [], []⟩,
  ⟨4, 2, "JUMPI", 270, 10, 1, [], []⟩,
  ⟨5, 3, "JUMPI", 260, 10, 1, [], []⟩,
  ⟨6, 4, "JUMPI", 250, 10, 1, [], []⟩,
  ⟨7, 5, "ORIGIN", 240, 2, 1, [], []⟩,
  ⟨8, 6, "STOP", 230, 0, 1, [], []⟩]

/-- A context with a window that ends before the third jump of the frame, and a limit of one. -/
def guardedContext (t : CallFrames) : Context where
  steps := guardedTrace.toArray
  callFrames := some t
  settings := { originControlWindow := 5, maxOriginControls := 1 }

/-- The steps of control flow behind each read of the sender. -/
def Context.aroundReads (c : Context) : List (List Int) :=
  (c.steps.toList.filter fun s => s.op = Opcode.origin).map fun s =>
    (OriginRead.controlsBehind c s).map Step.index

theorem reads_reported_of_indexed_guardedTrace :
    ∃ t, CallFrames.build guardedTrace {} = .ok t ∧
      (guardedContext t).aroundReads = [[4, 5], []] ∧
      ∃ fs, (Detector.originRead.run (guardedContext t) { label := "VUL" }).1.outcome = .ok fs ∧
        List.Forall₂ (OriginRead.ReportedBy (guardedContext t))
          (guardedTrace.filter fun s => s.op = Opcode.origin) fs := by
  have hingest : Step.ingest .bottomFirst (.entries (guardedTrace.map .step)) =
      .ok guardedTrace := rfl
  have haround : (CallFrames.build guardedTrace {}).toOption.any fun t =>
      (guardedContext t).aroundReads = [[4, 5], []] := by decide +kernel
  obtain ⟨t, ht, haround⟩ := exists_of_any_toOption haround
  exact ⟨t, ht, of_decide_eq_true haround, reads_reported_of_indexed (guardedContext t)
    (Context.indexed_of_ingest hingest _ _) (Nat.le_refl 1) _⟩

end TraceAudit
