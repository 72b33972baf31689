import TraceAudit.Proofs.Fields
import TraceAudit.Proofs.Report.Sources

/-!
# The accounts of a report

Every finding that comes in is either reported or counted as merged, and a report says where the
findings came from. These accounts balance if the names of the sources are distinct, as they are in
any table (`accounts_of_analyze`), but for one name: the detectors have an entry among the sources,
and a source of that name takes its place. Nothing is found in such a source, so what the detectors
raised is missing from the counts (`sources_of_shadowed`).

The reason is the law of `Counts.put`: setting a number adds it to the sum and takes away the number
that it displaces (`Counts.total_put`).
-/

namespace TraceAudit

variable {report : Report} {detected : List Finding} {sources : Fields}

/-! ### Setting numbers -/

namespace Counts

variable {counts : Counts} {name other : String} {n : Nat}

@[simp] theorem lookup_put_self (counts : Counts) (name : String) (n : Nat) :
    (counts.put name n).lookup name = some n := by
  induction counts with
  | nil => rw [put, List.lookup_cons, beq_self_eq_true]
  | cons c rest ih =>
    obtain ⟨m, k⟩ := c
    rw [put]
    split
    case isTrue h => rw [h, List.lookup_cons, beq_self_eq_true]
    case isFalse h =>
      have hne : (name == m) = false := beq_false_of_ne (Ne.symm h)
      rw [List.lookup_cons, hne]
      exact ih

theorem lookup_put_of_ne (h : other ≠ name) (counts : Counts) (n : Nat) :
    (counts.put name n).lookup other = counts.lookup other := by
  have hother : (other == name) = false := beq_false_of_ne h
  induction counts with
  | nil => rw [put, List.lookup_cons, hother]
  | cons c rest ih =>
    obtain ⟨m, k⟩ := c
    rw [put]
    split
    case isTrue hm => rw [hm, List.lookup_cons, List.lookup_cons, hother]
    case isFalse hm => rw [List.lookup_cons, List.lookup_cons, ih]

/-- Setting a number adds it to the sum and takes away the number that it displaces. -/
theorem total_put (counts : Counts) (name : String) (n : Nat) :
    (counts.put name n).total + (counts.lookup name).getD 0 = counts.total + n := by
  induction counts with
  | nil => simp [put, total]
  | cons c rest ih =>
    obtain ⟨m, k⟩ := c
    rw [put]
    split
    case isTrue h =>
      subst h
      simp only [total, List.foldr_cons, List.lookup_cons, beq_self_eq_true, Option.getD_some]
      omega
    case isFalse h =>
      have hne : (name == m) = false := beq_false_of_ne (Ne.symm h)
      simp only [total, List.foldr_cons, List.lookup_cons, hne] at ih ⊢
      omega

/-! ### Setting the numbers of sources -/

theorem putFound_cons (counts : Counts) (s : String × Value) (sources : Fields) :
    counts.putFound (s :: sources) =
      (counts.put s.1 (Static.foundIn s).length).putFound sources :=
  rfl

/-- The number under a name that no source has stays. -/
theorem lookup_putFound_of_notMem (h : name ∉ sources.map Prod.fst) (counts : Counts) :
    (counts.putFound sources).lookup name = counts.lookup name := by
  induction sources generalizing counts with
  | nil => rfl
  | cons s sources ih =>
    obtain ⟨hne, hrest⟩ := List.ne_and_not_mem_of_not_mem_cons h
    rw [putFound_cons, ih hrest, lookup_put_of_ne hne]

/-- Under the name of a source is the number of findings in it. -/
theorem lookup_putFound_of_mem (hnodup : (sources.map Prod.fst).Nodup) (counts : Counts)
    {s : String × Value} (h : s ∈ sources) :
    (counts.putFound sources).lookup s.1 = some (Static.foundIn s).length := by
  induction sources generalizing counts with
  | nil => exact nomatch h
  | cons s' sources ih =>
    obtain ⟨hfirst, hrest⟩ := List.nodup_cons.mp hnodup
    rcases List.mem_cons.mp h with rfl | hmem
    · rw [putFound_cons, lookup_putFound_of_notMem hfirst, lookup_put_self]
    · rw [putFound_cons]
      exact ih hrest _ hmem

/-- The numbers that the sources displace. -/
def displaced (counts : Counts) (sources : Fields) : Counts :=
  sources.map fun s => (s.1, (counts.lookup s.1).getD 0)

/-- **The sum of the counts.** It grows by what is found in the sources, less what is displaced. -/
theorem total_putFound (hnodup : (sources.map Prod.fst).Nodup) (counts : Counts) :
    (counts.putFound sources).total + (counts.displaced sources).total =
      counts.total + (Static.found sources).flatten.length := by
  induction sources generalizing counts with
  | nil => rfl
  | cons s sources ih =>
    obtain ⟨hfirst, hrest⟩ := List.nodup_cons.mp hnodup
    have hput := total_put counts s.1 (Static.foundIn s).length
    -- the other sources displace the same numbers as before
    have hdisplaced : (counts.put s.1 (Static.foundIn s).length).displaced sources =
        counts.displaced sources := by
      refine List.map_congr_left fun s' hs' => ?_
      have hne : s'.1 ≠ s.1 := fun heq => hfirst (heq ▸ List.mem_map_of_mem hs')
      rw [lookup_put_of_ne hne]
    have hih := ih hrest (counts.put s.1 (Static.foundIn s).length)
    rw [hdisplaced] at hih
    have hsum : (counts.displaced (s :: sources)).total =
        (counts.lookup s.1).getD 0 + (counts.displaced sources).total := rfl
    have hfound : (Static.found (s :: sources)).flatten.length =
        (Static.foundIn s).length + (Static.found sources).flatten.length := List.length_append
    rw [putFound_cons, hsum, hfound]
    omega

/-- One number is displaced by no source or by the one of its name. -/
theorem total_displaced_singleton (hnodup : (sources.map Prod.fst).Nodup) (name : String)
    (n : Nat) :
    (displaced [(name, n)] sources).total = if name ∈ sources.map Prod.fst then n else 0 := by
  induction sources with
  | nil => rfl
  | cons s sources ih =>
    obtain ⟨hfirst, hrest⟩ := List.nodup_cons.mp hnodup
    have hsum : (displaced [(name, n)] (s :: sources)).total =
        (List.lookup s.1 [(name, n)]).getD 0 + (displaced [(name, n)] sources).total := rfl
    rw [hsum, ih hrest]
    by_cases hname : s.1 = name
    · subst hname
      simp [hfirst]
    · have hne : (s.1 == name) = false := beq_false_of_ne hname
      simp only [List.lookup_cons, hne, List.lookup_nil, Option.getD_none, Nat.zero_add,
        List.map_cons, List.mem_cons, Ne.symm hname, false_or]

end Counts

/-! ### Tables of sources -/

/-- The sources of a table have distinct names. -/
def Static.SourceTable.IsMapping (t : SourceTable) : Prop :=
  ∀ sources, t.sources = .ok sources → (sources.map Prod.fst).Nodup

/-- Sources that are listed one by one are a mapping, also if names are repeated. -/
theorem Static.SourceTable.isMapping_pairs (ps : List (Value × Value)) :
    (pairs ps).IsMapping := by
  intro sources h
  obtain ⟨named, -, hsources⟩ := exists_of_bind_eq_ok h
  obtain rfl : Fields.ofPairs named = sources := Except.ok.inj hsources
  exact Fields.nodup_names_ofPairs named

/-! ### The accounts -/

/-- The number of findings with a severity, as a summary has it. -/
def Summary.numberOf (s : Summary) : Severity → Nat
  | .critical => s.critical
  | .high => s.high
  | .medium => s.medium
  | .low => s.low

/-- The accounts of a report on what the detectors raised and on `sources`. -/
structure Report.Accounts (report : Report) (detected : List Finding) (sources : Fields) :
    Prop where
  /-- The detectors have an entry of their own, unless a source takes its place. -/
  detectors : "detectors" ∉ sources.map Prod.fst →
    report.sources.lookup "detectors" = some detected.length
  /-- Then every finding is reported or counted as merged. -/
  balance : "detectors" ∉ sources.map Prod.fst →
    report.sources.total = report.findings.length + report.mergedCount
  /-- In a source that takes the place of the detectors nothing is found. -/
  detectors_shadowed : "detectors" ∈ sources.map Prod.fst →
    report.sources.lookup "detectors" = some 0
  /-- Then the findings of the detectors are not counted. -/
  balance_shadowed : "detectors" ∈ sources.map Prod.fst →
    report.sources.total + detected.length = report.findings.length + report.mergedCount
  /-- Each source has the number of findings in it. -/
  counted : ∀ s ∈ sources, report.sources.lookup s.1 = some (Static.foundIn s).length
  total : report.summary.total = report.findings.length
  severities : report.summary.total = report.summary.critical + report.summary.high +
    report.summary.medium + report.summary.low
  /-- Each of these counts the reported findings, with the severity that merging gave them. -/
  numberOf : ∀ v, report.summary.numberOf v =
    (report.findings.filter fun f => f.severity = v).length

/-- No tool has the name of the detectors, so nothing is found in a source of that name. -/
theorem Static.foundIn_detectors (v : Value) : foundIn ("detectors", v) = [] := by
  have hunknown : Tool.ofName? "detectors" = none := by decide
  exact foundIn_of_unknown hunknown v

theorem Summary.numberOf_ofFindings (fs : List Finding) (v : Severity) :
    (ofFindings fs).numberOf v = (fs.filter fun f => f.severity = v).length := by
  have hcount : (ofFindings fs).numberOf v = (fs.map Finding.severity).count v := by
    cases v <;> rfl
  rw [hcount, List.count, List.countP_map, List.countP_eq_length_filter]
  rfl

namespace Report.MadeFrom

/-- What is reported, merged or displaced is what came in. -/
theorem balance (hmade : report.MadeFrom detected sources) (hnodup : (sources.map Prod.fst).Nodup) :
    report.sources.total + (if "detectors" ∈ sources.map Prod.fst then detected.length else 0) =
      report.findings.length + report.mergedCount := by
  have hcounts := Counts.total_putFound hnodup [("detectors", detected.length)]
  have hdetected : Counts.total [("detectors", detected.length)] = detected.length := rfl
  rw [Counts.total_displaced_singleton hnodup, ← hmade.sources, hdetected] at hcounts
  rw [hmade.total, hcounts]

/-- Each source has the number of findings in it. -/
theorem lookup_sources (hmade : report.MadeFrom detected sources)
    (hnodup : (sources.map Prod.fst).Nodup) :
    ∀ s ∈ sources, report.sources.lookup s.1 = some (Static.foundIn s).length := by
  intro s hs
  rw [hmade.sources, Counts.lookup_putFound_of_mem hnodup _ hs]

theorem accounts (hmade : report.MadeFrom detected sources)
    (hnodup : (sources.map Prod.fst).Nodup) : report.Accounts detected sources where
  detectors h := by
    rw [hmade.sources, Counts.lookup_putFound_of_notMem h]
    rfl
  balance h := by
    have hbalance := hmade.balance hnodup
    rwa [if_neg h, Nat.add_zero] at hbalance
  detectors_shadowed h := by
    obtain ⟨⟨name, v⟩, hs, rfl⟩ := List.mem_map.mp h
    have hlookup := hmade.lookup_sources hnodup _ hs
    rwa [Static.foundIn_detectors] at hlookup
  balance_shadowed h := by
    have hbalance := hmade.balance hnodup
    rwa [if_pos h] at hbalance
  counted := hmade.lookup_sources hnodup
  total := by rw [hmade.summary, Summary.ofFindings, Summary.ofSeverities, List.length_map]
  severities := by
    rw [hmade.summary]
    exact Summary.total_ofSeverities _
  numberOf v := by
    rw [hmade.summary, Summary.numberOf_ofFindings]

end Report.MadeFrom

/-- **The accounts of every report.** -/
theorem accounts_of_analyze (r : AnalysisRequest) (report : Report)
    (hmapping : r.sources.IsMapping) (h : analyze r = .ok report) :
    ∃ detected sources, r.detected = .ok detected ∧ r.sources.sources = .ok sources ∧
      report.Accounts detected sources := by
  obtain ⟨detected, sources, hdetected, hsources, hmade⟩ := madeFrom_of_analyze h
  exact ⟨detected, sources, hdetected, hsources,
    hmade.accounts (hmapping sources hsources)⟩

theorem accounts_of_analyze_twoTools :
    ∃ report detected sources, analyze (originRequest twoTools) = .ok report ∧
      (originRequest twoTools).detected = .ok detected ∧ detected.length = 1 ∧
      report.Accounts detected sources ∧ report.sources.total = 3 ∧ report.mergedCount = 1 := by
  have hfigures : (analyze (originRequest twoTools)).toOption.any fun report =>
      report.sources.total = 3 ∧ report.mergedCount = 1 := by decide +kernel
  obtain ⟨report, hreport, hfigures⟩ := exists_of_any_toOption hfigures
  obtain ⟨detected, sources, hdetected, -, haccounts⟩ :=
    accounts_of_analyze (originRequest twoTools) report
      (Static.SourceTable.isMapping_pairs twoTools) hreport
  refine ⟨report, detected, sources, hreport, hdetected, ?_, haccounts, of_decide_eq_true hfigures⟩
  cases hdetected
  rfl

/-- A source named as the detectors: their finding is reported and counted nowhere. -/
theorem sources_of_shadowed :
    ∃ report detected, analyze (originRequest [(.text "detectors", .null)]) = .ok report ∧
      (originRequest [(.text "detectors", .null)]).detected = .ok detected ∧
      detected.length = 1 ∧ report.findings.length = 1 ∧ report.mergedCount = 0 ∧
      report.sources = [("detectors", 0)] ∧
      report.sources.lookup "detectors" ≠ some detected.length ∧
      report.sources.total ≠ report.findings.length + report.mergedCount := by
  have hdetected : (originRequest [(.text "detectors", .null)]).detected.toOption.any
      fun detected => detected.length = 1 := by decide +kernel
  have hreport : (analyze (originRequest [(.text "detectors", .null)])).toOption.any fun report =>
      report.findings.length = 1 ∧ report.mergedCount = 0 ∧
        report.sources = [("detectors", 0)] := by
    decide +kernel
  obtain ⟨detected, hdetected, hone⟩ := exists_of_any_toOption hdetected
  obtain ⟨report, hreport, hfigures⟩ := exists_of_any_toOption hreport
  obtain ⟨hfindings, hmerged, hsources⟩ := of_decide_eq_true hfigures
  refine ⟨report, detected, hreport, hdetected, of_decide_eq_true hone, hfindings, hmerged,
    hsources, ?_, ?_⟩
  · rw [hsources, of_decide_eq_true hone]
    decide
  · rw [hsources, hfindings, hmerged]
    decide

end TraceAudit
