import TraceAudit.Proofs.Report.Evidence
import TraceAudit.Proofs.Report.Numbering
import TraceAudit.Proofs.Static.Evidence

/-!
# Findings that name a frame

A finding of a tool is merged into a finding of a detector if both have one rule and one place. The
place of a finding that names a frame is this frame, and no tool can report such a place: it would
have to name a frame itself, or to have the place as the text of its rule, which is then no rule of
a detector (`Finding.mergeKey_ne_of_frameId`). So what names a frame is reported as it was raised.

With the frames of a trace at hand only two kinds of findings name none (`Finding.IsFrameless`):
unchecked calls, and arithmetic that no panic confirms. They are all that a tool can add to
(`framed_findings_kept`).
-/

namespace TraceAudit

variable {f : Finding}

/-! ### Findings of detectors -/

/-- A finding that says nothing of frames: an unchecked call, or arithmetic that no panic
confirms. -/
def Finding.IsFrameless (f : Finding) : Prop :=
  f.rule = Rule.uncheckedCall.tag ∨ f.rule = Rule.arithmetic.tag ∧ "heuristic" ∈ f.tags

section Drafts

variable {c : Context} {t : CallFrames} {s : Step} {draft : Draft}

theorem Context.Framed.ofInt?_frameOf_ne_null (h : c.Framed t) (hs : s ∈ c.steps.toList) :
    Value.ofInt? (c.frameOf s.index) ≠ .null := by
  obtain ⟨f, -, howner⟩ := h.exists_frame hs
  rw [howner]
  exact nofun

/-- What is drafted of reentrancy in frames names the frame. -/
theorem ExposedCall.frameId_of_mem_drafts {e : ExposedCall} (h : draft ∈ e.drafts) :
    draft.evidence.get "frame_id" = .int e.frame.id := by
  rcases List.mem_append.mp h with h | h
  · split at h
    · obtain rfl := List.mem_singleton.mp h
      rfl
    · exact nomatch h
  · obtain ⟨group, -, rfl⟩ := List.mem_map.mp h
    rfl

namespace Detector

theorem not_isFrameless_finding {d : Detector} (hcall : d.info.rule ≠ .uncheckedCall)
    (harithmetic : d.info.rule ≠ .arithmetic) (id : String) (draft : Draft) :
    ¬ (d.info.finding id draft).IsFrameless := by
  rintro (hrule | ⟨hrule, -⟩)
  · exact hcall (Rule.tag_injective hrule)
  · exact harithmetic (Rule.tag_injective hrule)

theorem frameId_finding_arithmetic (h : c.Framed t) (hd : draft ∈ (arithmetic.scan c).drafts)
    (id : String) : (arithmetic.info.finding id draft).frameId = .null ↔
      (arithmetic.info.finding id draft).IsFrameless := by
  rw [(scan_arithmetic h.indexed).2] at hd
  split at hd
  · obtain ⟨a, -, rfl⟩ := List.mem_map.mp hd
    have htags : (arithmetic.info.finding id a.draft).tags =
        ["dynamic", "overflow", "heuristic"] := rfl
    exact iff_of_true rfl (.inr ⟨rfl, htags ▸ by decide⟩)
  · obtain ⟨p, hp, rfl⟩ := List.mem_map.mp hd
    obtain ⟨s, hs, rfl⟩ := List.mem_map.mp hp
    have htags : (arithmetic.info.finding id (ArithmeticPanic.atStep c s).draft).tags =
        ["dynamic", "overflow", "panic-detected"] := rfl
    refine iff_of_false (h.ofInt?_frameOf_ne_null (List.mem_filter.mp hs).1) ?_
    rintro (hrule | ⟨-, htag⟩)
    · exact absurd (Rule.tag_injective (a := .arithmetic) hrule) nofun
    · rw [htags] at htag
      exact absurd htag (by decide)

/-- **What detectors raise names a frame** if frames are known, but for two kinds of findings. -/
theorem frameId_finding {d : Detector} (hcatalogue : d ∈ catalogue) (h : c.Framed t)
    (hframes : c.hasFrames = true) (hd : draft ∈ (d.scan c).drafts) (id : String) :
    (d.info.finding id draft).frameId = .null ↔ (d.info.finding id draft).IsFrameless := by
  simp only [catalogue, List.mem_cons, List.not_mem_nil, or_false] at hcatalogue
  rcases hcatalogue with rfl | rfl | rfl | rfl | rfl | rfl
  · exact frameId_finding_arithmetic h hd id
  · obtain ⟨u, -, rfl⟩ := UncheckedCall.exists_of_mem_scan hd
    exact iff_of_true rfl (.inl rfl)
  · obtain ⟨e, -, hd⟩ := ExposedCall.exists_of_mem_scan hd
    refine iff_of_false ?_ (not_isFrameless_finding (by decide) (by decide) id _)
    intro hnull
    cases (ExposedCall.frameId_of_mem_drafts hd).symm.trans hnull
  · change draft ∈ (FlatReentrancy.scan c).drafts at hd
    rw [FlatReentrancy.scan, FlatReentrancy.found, if_pos hframes] at hd
    cases hd
  · rw [scan_delegatecallTarget h.indexed] at hd
    obtain ⟨call, hcall, rfl⟩ := List.mem_map.mp hd
    obtain ⟨s, hs, rfl⟩ := List.mem_map.mp hcall
    exact iff_of_false (h.ofInt?_frameOf_ne_null (List.mem_filter.mp hs).1)
      (not_isFrameless_finding (by decide) (by decide) id _)
  · rw [scan_originRead h.indexed] at hd
    obtain ⟨r, hr, rfl⟩ := List.mem_map.mp hd
    obtain ⟨s, hs, rfl⟩ := List.mem_map.mp hr
    exact iff_of_false (h.ofInt?_frameOf_ne_null (List.mem_filter.mp hs).1)
      (not_isFrameless_finding (by decide) (by decide) id _)

end Detector

end Drafts

/-! ### Analyses -/

section Analyses

variable {r : AnalysisRequest} {report : Report} {detected : List Finding}

/-- Where frames are available, detectors look at a trace with its frames. -/
theorem exists_framed_of_analyze (hframes : report.framesAvailable = true)
    (h : analyze r = .ok report) :
    ∃ c t, c.Framed t ∧ c.hasFrames = true ∧
      r.detected = .ok (Detector.raised c { label := "VUL" } r.detectors) := by
  obtain ⟨steps, tx, callFrames, sources, merged, notes, hsteps, htx, hbuild, -, -, rfl⟩ :=
    exists_of_analyze h
  have hdetected : r.detected = .ok (Detector.raised ⟨steps.toArray, callFrames, r.settings⟩
      { label := "VUL" } r.detectors) := by
    rw [AnalysisRequest.detected, hsteps, htx]
    change r.framesOf steps tx >>= _ = _
    rw [hbuild]
    rfl
  rcases eq_none_or_build_of_framesOf hbuild with rfl | ⟨t, rfl, hbuilt⟩
  · exact absurd hframes Bool.false_ne_true
  · exact ⟨⟨steps.toArray, some t, r.settings⟩, t, {
      index := Context.indexed_of_ingest hsteps (some t) r.settings
      callFrames := rfl
      integrity := Nesting.integrity_of_build hbuilt }, hframes, hdetected⟩

/-- What detectors of this library raise where frames are available names a frame, but for two kinds
of findings, and has the tag of a rule. -/
theorem frameId_of_detected (hdetectors : ∀ d ∈ r.detectors, d ∈ Detector.catalogue)
    (hframes : report.framesAvailable = true) (h : analyze r = .ok report)
    (hdetected : r.detected = .ok detected) (hf : f ∈ detected) :
    (f.frameId = .null ↔ f.IsFrameless) ∧ ∃ rule : Rule, f.rule = rule.tag := by
  obtain ⟨c, t, hframed, hhas, hraised⟩ := exists_framed_of_analyze hframes h
  obtain rfl := Except.ok.inj (hdetected.symm.trans hraised)
  obtain ⟨d, hd, draft, hdraft, id, rfl⟩ := Detector.exists_finding_of_mem_runAll hdetectors hf
  exact ⟨Detector.frameId_finding (hdetectors d hd) hframed hhas hdraft id, d.info.rule, rfl⟩

/-- Without sources a report lists what the detectors raise. -/
theorem exists_analyze_without_sources (h : analyze r = .ok report)
    (hdetected : r.detected = .ok detected) :
    ∃ alone, analyze { r with sources := .value .null } = .ok alone ∧
      alone.findings = detected := by
  have hdetected' : AnalysisRequest.detected { r with sources := .value .null } = .ok detected :=
    hdetected
  obtain ⟨d, sources, hd, -, hmergeable⟩ := exists_analyze_iff.mp ⟨report, h⟩
  obtain rfl : detected = d := Except.ok.inj (hdetected.symm.trans hd)
  obtain ⟨alone, halone⟩ : ∃ alone, analyze { r with sources := .value .null } = .ok alone :=
    exists_analyze_iff.mpr ⟨detected, [], hdetected', rfl, hmergeable.detected, nofun⟩
  obtain ⟨raised, sources, hraised, hsources, hmade⟩ := madeFrom_of_analyze halone
  obtain rfl : detected = raised := Except.ok.inj (hdetected'.symm.trans hraised)
  obtain rfl : [] = sources := Except.ok.inj hsources
  exact ⟨alone, halone, hmade.findings.trans (Finding.mergeAll_nil detected)⟩

/-- **Findings that name a frame are kept as they are.** Where frames are available, an analysis
with detectors of this library reports each of their findings at the place where the same analysis
without sources reports it. If it names a frame, it is the same in everything. If it absorbs
findings of tools, it is an unchecked call or arithmetic that no panic confirms, and these are the
findings that name no frame; no finding of a tool names one either. -/
theorem framed_findings_kept :
    ∀ (r : AnalysisRequest) (report : Report), (∀ d ∈ r.detectors, d ∈ Detector.catalogue) →
      report.framesAvailable = true → analyze r = .ok report →
        ∃ alone sources, analyze { r with sources := .value .null } = .ok alone ∧
          r.sources.sources = .ok sources ∧
          (∀ g ∈ (Static.found sources).flatten, g.frameId = .null) ∧
          ∀ (k : Nat) (f : Finding), alone.findings[k]? = some f →
            (f.frameId = .null ↔ f.IsFrameless) ∧
            (f.frameId ≠ .null → report.findings[k]? = some f) ∧
            ∃ gs, report.findings[k]? = some (f.absorbAll gs) ∧
              (∀ g ∈ gs, g ∈ (Static.found sources).flatten) ∧ (gs ≠ [] → f.IsFrameless) := by
  intro r report hdetectors hframes h
  obtain ⟨detected, sources, hdetected, hsources, hmade⟩ := madeFrom_of_analyze h
  obtain ⟨alone, halone, hfindings⟩ := exists_analyze_without_sources h hdetected
  refine ⟨alone, sources, halone, hsources, fun g hg => Static.frameId_of_mem_found hg,
    fun k f hf => ?_⟩
  rw [hfindings] at hf
  obtain ⟨hnamed, rule, hrule⟩ :=
    frameId_of_detected hdetectors hframes h hdetected (List.mem_of_getElem? hf)
  have hkey : f.frameId ≠ .null → ∀ g ∈ (Static.found sources).flatten, g.mergeKey ≠ f.mergeKey :=
    fun hid g hg => Finding.mergeKey_ne_of_frameId hrule hid (Static.frameId_of_mem_found hg)
  rw [hmade.findings]
  refine ⟨hnamed, fun hid => Finding.getElem?_mergeAll_of_forall_ne hf (hkey hid), _,
    Finding.getElem?_mergeAll hf, fun g hg => Merging.mem_of_mem_absorbedInto hg,
    fun habsorbs => hnamed.mp ?_⟩
  by_contra hid
  exact habsorbs (Merging.absorbedInto_eq_nil_of_forall_ne hf (hkey hid))

/-- The ids and titles of what a report lists. -/
def Report.headings (report : Report) : List (String × String) :=
  report.findings.map fun f => (f.id, f.title)

theorem framed_findings_kept_carelessTrace :
    ∃ report, analyze carelessRequest = .ok report ∧ report.framesAvailable = true ∧
      report.headings = [
        ("VUL-0001", "[MERGED] Unchecked External Call: CALL"),
        ("VUL-0002", "Use of tx.origin in Access Control Logic"),
        ("STATIC-SLITHER-0002", "tx-origin")] ∧
      ∃ alone, analyze { carelessRequest with sources := .value .null } = .ok alone ∧
        ∀ (k : Nat) (f : Finding), alone.findings[k]? = some f →
          f.frameId ≠ .null → report.findings[k]? = some f := by
  have hreport : (analyze carelessRequest).toOption.any fun report =>
      report.framesAvailable = true ∧ report.headings = [
        ("VUL-0001", "[MERGED] Unchecked External Call: CALL"),
        ("VUL-0002", "Use of tx.origin in Access Control Logic"),
        ("STATIC-SLITHER-0002", "tx-origin")] := by decide +kernel
  obtain ⟨report, hreport, hshown⟩ := exists_of_any_toOption hreport
  obtain ⟨hframes, hheadings⟩ := of_decide_eq_true hshown
  obtain ⟨alone, sources, halone, -, -, hkept⟩ :=
    framed_findings_kept carelessRequest report (fun d hd => hd) hframes hreport
  exact ⟨report, hreport, hframes, hheadings, alone, halone, fun k f hf => (hkept k f hf).2.1⟩

end Analyses

end TraceAudit
