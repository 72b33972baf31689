import TraceAudit.Proofs.Detector.Programs
import TraceAudit.Proofs.Finding.Precedence
import TraceAudit.Proofs.IdSequence
import TraceAudit.Proofs.Report.Sources
import TraceAudit.Proofs.Static.Numbers

/-!
# The identifiers of a report

The detectors share one sequence of identifiers, and each source has a sequence of its own, with the
label of its tool. A detector returns identifiers that it has drawn, none of them twice
(`Detector.DrawsIds`). So findings of detectors are told apart by their identifiers, from each other
and from all others, and so are findings of different tools. What is not told apart are findings of
one tool under two of its names, as tools are known by names in any case: both sources count from
one on (`ids_repeat_across_cases`). This is the only way in which identifiers are repeated: they are
distinct exactly if no tool reports under two names (`ids_nodup_of_analyze`).

Merging makes no new identifiers (`Merger.Shows.ids_sublist`).
-/

namespace TraceAudit

open Merging

variable {c : Context} {ids : IdSequence} {r : AnalysisRequest} {report : Report}
  {detected : List Finding} {sources : Fields} {s s' : String × Value}

/-! ### Findings of detectors -/

theorem DetectorInfo.ids_findings (i : DetectorInfo) (ids : IdSequence) (drafts : List Draft) :
    (i.findings ids drafts).map Finding.id = ids.draw drafts.length := by
  induction drafts generalizing ids with
  | nil => rfl
  | cons d drafts ih =>
    rw [findings_cons, List.map_cons, ih, List.length_cons, Nat.add_comm, IdSequence.draw_add]
    rfl

namespace Detector

/-- A detector identifies what it returns by identifiers that it has drawn, in their order and none
of them twice; it may have drawn more. -/
def DrawsIds (d : Detector) : Prop :=
  ∀ c ids, ∃ count, (d.run c ids).2 = ids.skip count ∧
    ((d.run c ids).1.findings.map Finding.id).Sublist (ids.draw count)

/-- The detectors of this library do so. One that a fault ends may have used up identifiers that it
does not return. -/
theorem drawsIds_of_mem_catalogue {d : Detector} (hd : d ∈ catalogue) : d.DrawsIds := by
  intro c ids
  refine ⟨(d.scan c).drafts.length, ?_⟩
  rw [run_of_follows (follows_scan hd c), DetectorRun.findings, Scan.outcome]
  cases (d.scan c).fault with
  | none => exact ⟨rfl, (DetectorInfo.ids_findings _ ids _).symm ▸ List.Sublist.refl _⟩
  | some fault => exact ⟨rfl, List.nil_sublist _⟩

/-- Detectors that run one after the other take their identifiers from one sequence. -/
theorem ids_runAll {ds : List Detector} (hds : ∀ d ∈ ds, d.DrawsIds) (c : Context)
    (ids : IdSequence) :
    ∃ count, (((runAll c ids ds).1.flatMap DetectorRun.findings).map Finding.id).Sublist
      (ids.draw count) := by
  induction ds generalizing ids with
  | nil => exact ⟨0, List.Sublist.refl _⟩
  | cons d ds ih =>
    obtain ⟨drawn, hleft, hfirst⟩ := hds d List.mem_cons_self c ids
    obtain ⟨count, hrest⟩ := ih (fun d' hd' => hds d' (List.mem_cons_of_mem d hd')) (d.run c ids).2
    refine ⟨drawn + count, ?_⟩
    have hcons : (runAll c ids (d :: ds)).1 =
        (d.run c ids).1 :: (runAll c (d.run c ids).2 ds).1 := rfl
    rw [hcons, List.flatMap_cons, List.map_append, IdSequence.draw_add, ← hleft]
    exact hfirst.append hrest

end Detector

/-- The identifiers of what the detectors raise are from one sequence. -/
theorem ids_of_detected (hdetectors : ∀ d ∈ r.detectors, d.DrawsIds)
    (h : r.detected = .ok detected) :
    ∃ count, (detected.map Finding.id).Sublist (IdSequence.draw { label := "VUL" } count) := by
  rw [r.detected_eq] at h
  obtain ⟨c, -, rfl⟩ := exists_of_map_eq_ok h
  exact Detector.ids_runAll hdetectors c _

/-! ### Findings of sources -/

namespace Static

theorem Tool.label_injective {t t' : Tool} (h : t.label = t'.label) : t = t' := by
  revert h
  cases t <;> cases t' <;> decide

theorem Tool.label_ne (t : Tool) : "VUL" ≠ t.label := by
  cases t <;> decide

/-- What is read from a report comes from a list of entries. -/
theorem Tool.exists_ofEntries {t : Tool} {v : Value} {fs : List Finding}
    (h : t.normalize v = .ok fs) : ∃ entries, t.ofEntries entries = .ok fs := by
  unfold Tool.normalize at h
  split at h
  all_goals
    obtain ⟨_, -, h⟩ := exists_of_bind_eq_ok h
    obtain ⟨entries, -, h⟩ := exists_of_bind_eq_ok h
    exact ⟨entries, h⟩

/-- Where something is found, the source has the name of a tool that made sense of it. -/
theorem exists_tool_of_foundIn (h : foundIn s ≠ []) :
    ∃ t, Tool.ofName? s.1 = some t ∧ t.normalize s.2 = .ok (foundIn s) := by
  obtain ⟨name, report⟩ := s
  cases hname : Tool.ofName? name with
  | none => exact absurd (foundIn_of_unknown hname report) h
  | some t =>
    rw [foundIn_of_ofName? hname] at h ⊢
    refine ⟨t, rfl, ?_⟩
    cases hnormalize : t.normalize report with
    | ok findings => rfl
    | error fault =>
      rw [hnormalize] at h
      exact absurd rfl h

/-- The findings of a source are numbered from one on, with the label of its tool. -/
theorem ids_foundIn (h : foundIn s ≠ []) :
    ∃ t, Tool.ofName? s.1 = some t ∧
      (foundIn s).map Finding.id = IdSequence.draw { label := t.label } (foundIn s).length := by
  obtain ⟨t, ht, hnormalize⟩ := exists_tool_of_foundIn h
  obtain ⟨entries, hentries⟩ := Tool.exists_ofEntries hnormalize
  exact ⟨t, ht, Tool.ids_ofEntries hentries⟩

theorem nodup_ids_foundIn (s : String × Value) : ((foundIn s).map Finding.id).Nodup := by
  by_cases h : foundIn s = []
  · rw [h]
    exact List.nodup_nil
  · obtain ⟨t, -, hids⟩ := ids_foundIn h
    rw [hids]
    exact IdSequence.nodup_draw _ _

/-- Findings of two sources have an identifier in common exactly if both are found to contain
something and have names of one tool. -/
theorem disjoint_ids_foundIn_iff :
    List.Disjoint ((foundIn s).map Finding.id) ((foundIn s').map Finding.id) ↔
      (foundIn s ≠ [] → foundIn s' ≠ [] → Tool.ofName? s.1 ≠ Tool.ofName? s'.1) := by
  constructor
  · -- two sources of one tool both contain its first identifier
    intro hdisjoint h h' hname
    obtain ⟨t, ht, hids⟩ := ids_foundIn h
    obtain ⟨t', ht', hids'⟩ := ids_foundIn h'
    obtain rfl : t = t' := Option.some.inj (ht.symm.trans (hname.trans ht'))
    rw [hids, hids'] at hdisjoint
    exact hdisjoint (IdSequence.nth_mem_draw (List.length_pos_of_ne_nil h))
      (IdSequence.nth_mem_draw (List.length_pos_of_ne_nil h'))
  · intro hname
    by_cases h : foundIn s = []
    · rw [h]
      exact List.disjoint_nil_left _
    by_cases h' : foundIn s' = []
    · rw [h']
      exact List.disjoint_nil_right _
    obtain ⟨t, ht, hids⟩ := ids_foundIn h
    obtain ⟨t', ht', hids'⟩ := ids_foundIn h'
    rw [hids, hids']
    refine IdSequence.disjoint_draw (fun hlabel => hname h h' ?_) _ _
    rw [ht, ht', Tool.label_injective hlabel]

/-- No tool is found to report under two names. -/
def OneNameEach (sources : Fields) : Prop :=
  sources.Pairwise fun s s' =>
    foundIn s ≠ [] → foundIn s' ≠ [] → Tool.ofName? s.1 ≠ Tool.ofName? s'.1

theorem map_id_flatten_found (sources : Fields) :
    (found sources).flatten.map Finding.id =
      (sources.map fun s => (foundIn s).map Finding.id).flatten := by
  rw [List.map_flatten, found, List.map_map]
  rfl

/-- The identifiers of what is found are distinct exactly if no tool reports under two names. -/
theorem nodup_ids_found_iff :
    ((found sources).flatten.map Finding.id).Nodup ↔ OneNameEach sources := by
  rw [map_id_flatten_found, List.nodup_flatten, List.pairwise_map, OneNameEach]
  simp only [disjoint_ids_foundIn_iff, and_iff_right_iff_imp]
  intro _ ids hids
  obtain ⟨s, -, rfl⟩ := List.mem_map.mp hids
  exact nodup_ids_foundIn s

/-- Detectors and sources have no identifier in common. -/
theorem disjoint_ids_found {count : Nat}
    (hdetected : (detected.map Finding.id).Sublist (IdSequence.draw { label := "VUL" } count)) :
    List.Disjoint (detected.map Finding.id) ((found sources).flatten.map Finding.id) := by
  intro id hid hfound
  rw [map_id_flatten_found] at hfound
  obtain ⟨ids, hids, hmem⟩ := List.mem_flatten.mp hfound
  obtain ⟨s, -, rfl⟩ := List.mem_map.mp hids
  have hne : foundIn s ≠ [] := by
    intro hnil
    rw [hnil] at hmem
    exact nomatch hmem
  obtain ⟨t, -, hdraw⟩ := ids_foundIn hne
  rw [hdraw] at hmem
  exact IdSequence.disjoint_draw t.label_ne _ _ (hdetected.subset hid) hmem

end Static

/-! ### Identifiers after merging -/

namespace Merger

variable {m : Merger} {xs : List Addition}

/-- Merging makes no new identifiers and repeats none. -/
theorem Shows.ids_sublist (h : m.Shows xs) :
    (m.findings.map Finding.id).Sublist (xs.map fun x => x.finding.id) := by
  have hfinal : ∀ i, (final xs i).map Finding.id = (xs[i]?).map fun x => x.finding.id := by
    intro i
    rw [final, Option.map_map]
    exact congrArg (Option.map · xs[i]?) (funext fun x => Finding.id_absorbAll _ _)
  have hall : (List.range xs.length).filterMap (fun i => (final xs i).map Finding.id) =
      xs.map fun x => x.finding.id := by
    simp only [hfinal]
    rw [← List.map_filterMap, filterMap_getElem?_range]
  rw [h.findings_eq_final, List.map_filterMap, ← hall]
  exact List.filter_sublist.filterMap _

end Merger

/-- The identifiers of a report are identifiers of what came in. -/
theorem ids_sublist_of_madeFrom (h : report.MadeFrom detected sources) :
    (report.findings.map Finding.id).Sublist
      (detected.map Finding.id ++ (Static.found sources).flatten.map Finding.id) := by
  have hshows := Merger.shows_batches detected (Static.found sources)
  have hids : (inTurn detected (Static.found sources).flatten).map (fun x => x.finding.id) =
      detected.map Finding.id ++ (Static.found sources).flatten.map Finding.id := by
    rw [inTurn, List.map_append, List.map_map, List.map_map]
    rfl
  rw [h.findings, Finding.mergeAll, ← Merger.ofBatches_batches, ← hids]
  exact hshows.ids_sublist

/-- **What identifies the findings of a report.** Let the detectors be ones of this library, or any
others that identify what they return by what they have drawn. Then what comes in has distinct
identifiers exactly if no tool reports under two names, and in this case so has what is reported. -/
theorem ids_nodup_of_analyze (r : AnalysisRequest) (report : Report)
    (hdetectors : ∀ d ∈ r.detectors, d ∈ Detector.catalogue ∨ d.DrawsIds)
    (h : analyze r = .ok report) :
    ∃ detected sources, r.detected = .ok detected ∧ r.sources.sources = .ok sources ∧
      (((detected ++ (Static.found sources).flatten).map Finding.id).Nodup ↔
        Static.OneNameEach sources) ∧
      (Static.OneNameEach sources → (report.findings.map Finding.id).Nodup) := by
  have hdraws : ∀ d ∈ r.detectors, d.DrawsIds := fun d hd =>
    (hdetectors d hd).elim Detector.drawsIds_of_mem_catalogue id
  obtain ⟨detected, sources, hdetected, hsources, hmade⟩ := madeFrom_of_analyze h
  obtain ⟨count, hcount⟩ := ids_of_detected hdraws hdetected
  have hall : ((detected ++ (Static.found sources).flatten).map Finding.id).Nodup ↔
      Static.OneNameEach sources := by
    have hnodup : (detected.map Finding.id).Nodup := (IdSequence.nodup_draw _ count).sublist hcount
    have hdisjoint : List.Disjoint (detected.map Finding.id)
      ((Static.found sources).flatten.map Finding.id) := Static.disjoint_ids_found hcount
    rw [List.map_append, List.nodup_append', Static.nodup_ids_found_iff]
    exact ⟨fun hids => hids.2.1, fun hnames => ⟨hnodup, hnames, hdisjoint⟩⟩
  refine ⟨detected, sources, hdetected, hsources, hall, fun hnames => ?_⟩
  have hsublist := ids_sublist_of_madeFrom hmade
  rw [← List.map_append] at hsublist
  exact (hall.mpr hnames).sublist hsublist

theorem ids_nodup_of_analyze_twoTools :
    ∃ report, (∀ d ∈ (originRequest twoTools).detectors,
        d ∈ Detector.catalogue ∨ d.DrawsIds) ∧
      analyze (originRequest twoTools) = .ok report ∧
      report.findings.map Finding.id = ["VUL-0001", "STATIC-SLITHER-0001"] ∧
      (report.findings.map Finding.id).Nodup := by
  have hdetectors : ∀ d ∈ (originRequest twoTools).detectors,
      d ∈ Detector.catalogue ∨ d.DrawsIds := by
    intro d hd
    rw [List.mem_singleton.mp hd]
    exact .inl (by simp [Detector.catalogue])
  have hids : (analyze (originRequest twoTools)).toOption.any fun report =>
      report.findings.map Finding.id = ["VUL-0001", "STATIC-SLITHER-0001"] := by decide +kernel
  obtain ⟨report, hreport, hids⟩ := exists_of_any_toOption hids
  obtain ⟨detected, sources, -, hsources, -, hnodup⟩ :=
    ids_nodup_of_analyze (originRequest twoTools) report hdetectors hreport
  have hnames : Static.OneNameEach sources := by
    cases hsources
    refine List.pairwise_pair.mpr fun _ _ => ?_
    decide
  exact ⟨report, hdetectors, hreport, of_decide_eq_true hids, hnodup hnames⟩

/-- Reports of one tool under two of its names. -/
def twoNames : List (Value × Value) := [
  (.text "slither", .list [.object [("check", .text "shadowing-state")]]),
  (.text "Slither", .list [.object [("check", .text "dead-code")]])]

/-- Two findings of one tool under two of its names have the same identifier. -/
theorem ids_repeat_across_cases :
    ∃ report, analyze (originRequest twoNames) = .ok report ∧
      report.findings.map Finding.id =
        ["VUL-0001", "STATIC-SLITHER-0001", "STATIC-SLITHER-0001"] ∧
      ¬ (report.findings.map Finding.id).Nodup := by
  have hids : (analyze (originRequest twoNames)).toOption.any fun report =>
      report.findings.map Finding.id =
        ["VUL-0001", "STATIC-SLITHER-0001", "STATIC-SLITHER-0001"] := by decide +kernel
  obtain ⟨report, hreport, hids⟩ := exists_of_any_toOption hids
  refine ⟨report, hreport, of_decide_eq_true hids, ?_⟩
  rw [of_decide_eq_true hids]
  decide

end TraceAudit
