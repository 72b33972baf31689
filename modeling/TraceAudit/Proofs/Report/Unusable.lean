import TraceAudit.Proofs.Static.Unusable

/-!
# Unusable sources in a report

A source in which nothing is found leaves the merger as it is and puts a zero among the numbers of
findings. The numbers of the other sources are set as before, around the zero
(`Counts.GainsZero.put`). So an analysis with one more source of no use is the analysis without it,
but for this zero and the notes. Only a source that is nested too deeply stops the analysis
(`unusable_sources_add_nothing`).
-/

namespace TraceAudit

open Static

variable {counts counts' : Counts} {name other : String} {s : String × Value}
  {before after : Fields}

/-! ### One more zero -/

namespace Counts

/-- The second numbers are the first with a zero for one more name. -/
def GainsZero (counts counts' : Counts) (name : String) : Prop :=
  name ∉ counts.map Prod.fst ∧
    ∃ l₁ l₂, counts = l₁ ++ l₂ ∧ counts' = l₁ ++ (name, 0) :: l₂

theorem mem_names_put {n : Nat} :
    other ∈ (counts.put name n).map Prod.fst ↔ other = name ∨ other ∈ counts.map Prod.fst := by
  induction counts with
  | nil => simp [put]
  | cons c rest ih =>
    obtain ⟨m, k⟩ := c
    by_cases h : m = name
    · simp [put, h]
    · simp only [put, if_neg h, List.map_cons, List.mem_cons, ih]
      exact or_left_comm

theorem put_of_notMem (h : name ∉ counts.map Prod.fst) (n : Nat) :
    counts.put name n = counts ++ [(name, n)] := by
  induction counts with
  | nil => rfl
  | cons c rest ih =>
    obtain ⟨m, k⟩ := c
    have hne : m ≠ name := fun heq => h (heq ▸ List.mem_cons_self)
    have hrest : name ∉ List.map Prod.fst rest := fun hmem => h (List.mem_cons_of_mem _ hmem)
    rw [put, if_neg hne, ih hrest, List.cons_append]

/-- A number of another name is set on both sides alike. -/
theorem GainsZero.put (h : counts.GainsZero counts' name) (hne : other ≠ name) (n : Nat) :
    (counts.put other n).GainsZero (counts'.put other n) name := by
  obtain ⟨hname, l₁, l₂, rfl, rfl⟩ := h
  refine ⟨fun hmem => (mem_names_put.mp hmem).elim (fun heq => hne heq.symm) hname, ?_⟩
  clear hname
  induction l₁ with
  | nil =>
    refine ⟨[], Counts.put l₂ other n, rfl, ?_⟩
    rw [List.nil_append, Counts.put, if_neg hne.symm]
    rfl
  | cons c l₁ ih =>
    obtain ⟨m, k⟩ := c
    by_cases h : m = other
    · refine ⟨(m, n) :: l₁, l₂, ?_, ?_⟩
      · rw [List.cons_append, Counts.put, if_pos h]
        rfl
      · rw [List.cons_append, Counts.put, if_pos h]
        rfl
    · obtain ⟨l₁', l₂', hleft, hright⟩ := ih
      refine ⟨(m, k) :: l₁', l₂', ?_, ?_⟩
      · rw [List.cons_append, Counts.put, if_neg h, hleft]
        rfl
      · rw [List.cons_append, Counts.put, if_neg h, hright]
        rfl

theorem GainsZero.putFound (h : counts.GainsZero counts' name) {sources : Fields}
    (hname : name ∉ sources.map Prod.fst) :
    (counts.putFound sources).GainsZero (counts'.putFound sources) name := by
  induction sources generalizing counts counts' with
  | nil => exact h
  | cons s sources ih =>
    have hne : s.1 ≠ name := fun heq => hname (heq ▸ List.mem_cons_self)
    have hrest : name ∉ sources.map Prod.fst := fun hmem => hname (List.mem_cons_of_mem _ hmem)
    exact ih (h.put hne _) hrest

theorem mem_names_putFound {sources : Fields} :
    name ∈ (counts.putFound sources).map Prod.fst ↔
      name ∈ counts.map Prod.fst ∨ name ∈ sources.map Prod.fst := by
  induction sources generalizing counts with
  | nil => simp [Counts.putFound]
  | cons s sources ih =>
    change name ∈ List.map Prod.fst ((counts.put s.1 _).putFound sources) ↔ _
    rw [ih, mem_names_put, List.map_cons, List.mem_cons]
    exact or_assoc.trans or_left_comm

/-- A source in which nothing is found leads to a zero. -/
theorem gainsZero_putFound (hfound : foundIn s = []) (hcounts : s.1 ∉ counts.map Prod.fst)
    (hsources : s.1 ∉ (before ++ after).map Prod.fst) :
    (counts.putFound (before ++ after)).GainsZero (counts.putFound (before ++ s :: after)) s.1 := by
  rw [List.map_append, List.mem_append, not_or] at hsources
  rw [Counts.putFound, Counts.putFound, List.foldl_append, List.foldl_append, List.foldl_cons]
  refine GainsZero.putFound ⟨?_, counts.putFound before, [], ?_, ?_⟩ hsources.2
  · exact fun hmem => (mem_names_putFound.mp hmem).elim hcounts hsources.1
  · rw [List.append_nil]
    rfl
  · rw [hfound]
    exact put_of_notMem (fun hmem => (mem_names_putFound.mp hmem).elim hcounts hsources.1) 0

end Counts

/-! ### One more source -/

/-- The second table lists the sources of the first and one more, at any place. -/
def Static.SourceTable.Gains (table table' : SourceTable) (s : String × Value) : Prop :=
  ∃ before after, table.sources = .ok (before ++ after) ∧
    table'.sources = .ok (before ++ s :: after) ∧ s.1 ∉ (before ++ after).map Prod.fst

namespace SourceRun

variable {detected : List Finding} {notes : List Note} {run run' : SourceRun}

/-- With one more source that returns nothing, the others are merged as they are without it. -/
theorem ofSources_insert (hsource : ofSource s.1 s.2 = .ok ([], notes)) (detected : List Finding) :
    ofSources detected (before ++ s :: after) =
      (ofSources detected (before ++ after)).map fun _ =>
        (before ++ s :: after).foldl gain (ofDetected detected) := by
  have hkeys : keysOf s = .ok [] := by
    rw [keysOf, hsource]
    rfl
  rw [ofSources_eq, ofSources_eq, List.mapM_append, List.mapM_append, List.mapM_cons, hkeys]
  cases detected.mapM Finding.mergeKey? with
  | error fault => rfl
  | ok keys =>
    cases before.mapM keysOf with
    | error fault => rfl
    | ok keys => cases after.mapM keysOf <;> rfl

/-- A source that returns nothing does not show in the merger. -/
theorem merger_foldl_gain_insert (hfound : foundIn s = []) (run : SourceRun) :
    ((before ++ s :: after).foldl gain run).merger = ((before ++ after).foldl gain run).merger := by
  rw [merger_foldl_gain, merger_foldl_gain, found, found, List.map_append, List.map_append,
    List.map_cons, hfound, List.foldl_append, List.foldl_append, List.foldl_cons]
  rfl

/-- Where one more source fails, nothing is merged. -/
theorem exists_ofSources_eq_error (hsource : ∃ fault, ofSource s.1 s.2 = .error fault) :
    ∃ fault, ofSources detected (before ++ s :: after) = .error fault := by
  refine exists_eq_error_iff.mpr fun hrun => ?_
  obtain ⟨keys, hkeys⟩ := (exists_ofSources_iff.mp hrun).sources s
    (List.mem_append_right before List.mem_cons_self)
  obtain ⟨fault, hfault⟩ := hsource
  rw [keysOf, hfault] at hkeys
  cases hkeys

end SourceRun

/-- An analysis with one more source that returns nothing is the same, but for one zero. -/
theorem analyze_insert {r : AnalysisRequest} {table : SourceTable} {notes : List Note}
    (hgains : r.sources.Gains table s) (hdetectors : s.1 ≠ "detectors")
    (hsource : ofSource s.1 s.2 = .ok ([], notes)) :
    ∃ counts notes,
      analyze { r with sources := table } =
        (analyze r).map (fun report => { report with sources := counts, notes }) ∧
      ∀ report, analyze r = .ok report → report.sources.GainsZero counts s.1 := by
  obtain ⟨before, after, hsources, htable, hname⟩ := hgains
  have hfound : foundIn s = [] := by rw [foundIn, resultOf_of_ofSource hsource]
  rw [analyze_eq, analyze_eq]
  change ∃ counts notes, (r.context >>= fun c => table.sources >>= fun sources =>
    SourceRun.ofSources (r.raised c) sources >>= fun merged => .ok (r.reportOn c merged)) = _ ∧ _
  rw [hsources, htable]
  cases hcontext : r.context with
  | error fault =>
    refine ⟨[], [], rfl, fun report h => ?_⟩
    cases h
  | ok c =>
    obtain ⟨run, hrun⟩ : ∃ run, (before ++ s :: after).foldl SourceRun.gain
      (SourceRun.ofDetected (r.raised c)) = run := ⟨_, rfl⟩
    refine ⟨run.counts, (r.reportOn c run).notes, ?_, fun report h => ?_⟩
    · change (SourceRun.ofSources (r.raised c) (before ++ s :: after) >>= _) =
        Except.map _ (SourceRun.ofSources (r.raised c) (before ++ after) >>= _)
      rw [SourceRun.ofSources_insert hsource, hrun]
      cases hmerged : SourceRun.ofSources (r.raised c) (before ++ after) with
      | error fault => rfl
      | ok merged =>
        -- the two runs have the same merger, and the rest of the report is made from it
        have hmerger : run.merger = merged.merger := by
          rw [← hrun, SourceRun.merger_foldl_gain_insert hfound,
            SourceRun.eq_foldl_of_ofSources hmerged]
        refine congrArg Except.ok ?_
        simp only [AnalysisRequest.reportOn, Report.ofRuns, hmerger]
    · change (SourceRun.ofSources (r.raised c) (before ++ after) >>= _) = _ at h
      obtain ⟨merged, hmerged, h⟩ := exists_of_bind_eq_ok h
      cases h
      have hcounts : s.1 ∉ List.map Prod.fst [("detectors", (r.raised c).length)] := by
        simpa using hdetectors
      change merged.counts.GainsZero run.counts s.1
      rw [← hrun, SourceRun.counts_foldl_gain, SourceRun.counts_ofSources hmerged]
      exact Counts.gainsZero_putFound hfound hcounts hname

/-- An analysis with one more source that is nested too deeply is refused. -/
theorem exists_analyze_eq_error {r : AnalysisRequest} {table : SourceTable}
    (hgains : r.sources.Gains table s) (hdeep : IsTooDeep s) :
    ∃ fault, analyze { r with sources := table } = .error fault := by
  obtain ⟨before, after, -, htable, -⟩ := hgains
  refine exists_eq_error_iff.mpr fun hreturns => ?_
  obtain ⟨detected, sources, -, hsources, hmergeable⟩ := exists_analyze_iff.mp hreturns
  obtain rfl : before ++ s :: after = sources := Except.ok.inj (htable.symm.trans hsources)
  exact exists_eq_error_iff.mp (SourceRun.exists_ofSources_eq_error
    (exists_ofSource_eq_error_iff.mpr hdeep)) (SourceRun.exists_ofSources_iff.mpr hmergeable)

/-- **Unusable sources add nothing**, unless they are nested too deeply. Reading a source fails
exactly in this case, which takes nesting beyond the limit: of the JSON in a text, or of any other
report as a whole. An unusable source returns no findings otherwise, and an analysis with one more
of them, wherever it stands among the others, is refused exactly if the one without it is, and its
report is the same, but that it has a zero for the name of this source. An analysis with one more
source that is nested too deeply is refused. -/
theorem unusable_sources_add_nothing (s : String × Value) :
    ((∃ fault, ofSource s.1 s.2 = .error fault) ↔ IsTooDeep s) ∧
    (∀ t text, Tool.ofName? s.1 = some t → s.2 = .text text →
      (IsTooDeep s ↔ Json.read text = .error .tooDeep)) ∧
    ((∀ text, s.2 ≠ .text text) → IsTooDeep s → Value.maxDepth + 1 < s.2.depth) ∧
    (IsUnusable s → ¬IsTooDeep s → ∃ notes, ofSource s.1 s.2 = .ok ([], notes)) ∧
    ∀ (r : AnalysisRequest) (table : SourceTable),
      r.sources.Gains table s → s.1 ≠ "detectors" → IsUnusable s →
        (¬IsTooDeep s → ∃ counts notes,
          analyze { r with sources := table } =
            (analyze r).map (fun report => { report with sources := counts, notes }) ∧
          ∀ report, analyze r = .ok report → report.sources.GainsZero counts s.1) ∧
        (IsTooDeep s → ∃ fault, analyze { r with sources := table } = .error fault) := by
  refine ⟨exists_ofSource_eq_error_iff, fun t text => isTooDeep_iff_of_text, fun htext hdeep => ?_,
    exists_notes_of_isUnusable, fun r table hgains hdetectors hunusable =>
      ⟨fun hdeep => ?_, exists_analyze_eq_error hgains⟩⟩
  · obtain ⟨t, -, hdeep⟩ := hdeep
    exact hdeep.lt_depth htext
  · obtain ⟨notes, hsource⟩ := exists_notes_of_isUnusable hunusable hdeep
    exact analyze_insert hgains hdetectors hsource

/-- An entry with a description that is no text. -/
def misdescribed : Value :=
  .object [("title", .text "Unprotected call"), ("description", .int 5)]

/-- A report of which only the first entry can be read. -/
def halfReadable : Value :=
  .list [.object [("title", .text "Integer overflow")], misdescribed]

/-- The two tools with one more source between them. -/
def threeSources : List (Value × Value) :=
  twoTools.take 1 ++ (.text "Mythril", halfReadable) :: twoTools.drop 1

theorem unusable_sources_add_nothing_misdescribed :
    ∃ report alone, analyze (originRequest threeSources) = .ok report ∧
      analyze (originRequest twoTools) = .ok alone ∧
      report.findings = alone.findings ∧ report.mergedCount = alone.mergedCount ∧
      report.sources = [("detectors", 1), ("slither", 1), ("Mythril", 0), ("mythril", 1)] := by
  obtain ⟨-, -, hdepth, -, hinsert⟩ := unusable_sources_add_nothing ("Mythril", halfReadable)
  have hunusable : IsUnusable ("Mythril", halfReadable) := by
    have hrefused : Tool.mythril.ofEntry misdescribed = .error (.rejectedFields ["description"]) :=
      rfl
    refine .inr (.inr ⟨.mythril, rfl, .inr ⟨_, rfl, misdescribed, ?_, _, hrefused⟩⟩)
    exact List.mem_cons_of_mem _ List.mem_cons_self
  have hdeep : ¬IsTooDeep ("Mythril", halfReadable) := fun h =>
    absurd (hdepth (fun _ => nofun) h) (by decide)
  have hgains : (SourceTable.pairs twoTools).Gains (.pairs threeSources)
      ("Mythril", halfReadable) := by
    refine ⟨[("slither", _)], [("mythril", _)], rfl, rfl, ?_⟩
    simp
  obtain ⟨hsame, -⟩ :=
    hinsert (originRequest twoTools) (.pairs threeSources) hgains (by decide) hunusable
  obtain ⟨counts, notes, hanalyze, -⟩ := hsame hdeep
  have hcounts : (analyze (originRequest threeSources)).toOption.any fun report =>
      report.sources = [("detectors", 1), ("slither", 1), ("Mythril", 0), ("mythril", 1)] := by
    decide +kernel
  obtain ⟨report, hreport, hcounts⟩ := exists_of_any_toOption hcounts
  change analyze (originRequest threeSources) = _ at hanalyze
  obtain ⟨alone, halone, rfl⟩ := exists_of_map_eq_ok (hanalyze.symm.trans hreport)
  exact ⟨_, alone, hreport, halone, rfl, rfl, of_decide_eq_true hcounts⟩

/-- A report whose only entry has the given value for a name. -/
def reportNamed (name : Value) : Value :=
  .list [.object [("check", name)]]

theorem readsTooDeep_reportNamed {name : Value} (h : name.display? = .error .tooDeep) :
    Tool.slither.ReadsTooDeep (reportNamed name) :=
  .name (i := 0) rfl rfl h fun _ _ hj => absurd hj (Nat.not_lt_zero _)

/-- A name that is nested too deeply makes for a fault that is not foreseen: the source returns
nothing at all, and an analysis with this source no report. -/
theorem ofSource_reportNamed_nested :
    ofSource "slither" (reportNamed (Value.nested Value.maxDepth)) = .error .tooDeep ∧
      ∃ fault, analyze (originRequest
        [(.text "slither", reportNamed (Value.nested Value.maxDepth))]) = .error fault := by
  have hname : (Value.nested Value.maxDepth).display? = .error .tooDeep := by
    rw [Value.display?, Value.fault?_nested (Nat.le_refl _)]
  have hdeep := readsTooDeep_reportNamed hname
  have hgains : (SourceTable.pairs []).Gains
      (.pairs [(.text "slither", reportNamed (Value.nested Value.maxDepth))])
      ("slither", reportNamed (Value.nested Value.maxDepth)) :=
    ⟨[], [], rfl, rfl, List.not_mem_nil⟩
  exact ⟨hdeep.ofSource_eq rfl,
    exists_analyze_eq_error (r := originRequest []) hgains ⟨.slither, rfl, hdeep⟩⟩

end TraceAudit
