import TraceAudit.Proofs.Finding.Merging

/-!
# The reference semantics of merging

What a session with a merger comes to, said of the findings that were added and not of the merger's
index: `Finding.IsMerge` says what a finding is that others were folded into, and
`Merger.MeetsReference` says which findings are listed, which are absorbed, by which finding, and
what becomes of each. Every session meets the reference (`ofBatches_meetsReference`), in whatever
order batches of detectors and of tools come.
-/

namespace TraceAudit

open Merging

/-- The finding `result` is what `own` becomes when the findings `absorbed` are folded into it. -/
structure Finding.IsMerge (own : Finding) (absorbed : List Finding) (result : Finding) : Prop where
  id : result.id = own.id
  rule : result.rule = own.rule
  description : result.description = own.description
  recommendation : result.recommendation = own.recommendation
  /-- The severity is the highest of all. -/
  severity_mem : ∃ f ∈ own :: absorbed, f.severity = result.severity
  severity_max : ∀ f ∈ own :: absorbed, f.severity.rank ≤ result.severity.rank
  /-- The evidence becomes a list, in the order of absorption. -/
  evidence : result.evidence =
    .list (own.evidence.items ++ absorbed.flatMap fun f => f.evidence.items)
  /-- Each tag stands where it occurs first. -/
  tags : result.tags = (own.tags ++ absorbed.flatMap Finding.tags).eraseDups
  /-- A title has the mark once. -/
  title_of_marked : Text.contains own.title "[MERGED]" = true → result.title = own.title
  title_of_unmarked : Text.contains own.title "[MERGED]" = false →
    result.title = "[MERGED] " ++ own.title

namespace Finding

variable {own : Finding} {absorbed : List Finding}

theorem isMerge_merged (own : Finding) (absorbed : List Finding) :
    own.IsMerge absorbed (own.merged absorbed) where
  id := rfl
  rule := rfl
  description := rfl
  recommendation := rfl
  severity_mem := by
    have hne : (own :: absorbed).map severity ≠ [] := nofun
    exact List.mem_map.mp (Severity.highestOf_mem hne)
  severity_max f hf := Severity.rank_le_highestOf (List.mem_map_of_mem hf)
  evidence := rfl
  tags := rfl
  title_of_marked h := if_pos h
  title_of_unmarked h := by
    have hmark : mergedMark ++ " " = "[MERGED] " := rfl
    have hnot : ¬ Text.contains own.title mergedMark = true := by
      rw [mergedMark, h]
      exact Bool.false_ne_true
    exact (if_neg hnot).trans (congrArg (· ++ own.title) hmark)

end Finding

/-- The findings of a merger are those that the additions `xs` call for. -/
structure Merger.MeetsReference (m : Merger) (xs : List Addition) : Prop where
  /-- Each added finding keeps its position. -/
  size : m.pool.length = xs.length
  /-- Listed are the findings that are not absorbed, in the order of addition. -/
  findings : m.findings =
    ((List.range xs.length).filter fun i => ¬ IsAbsorbed xs i).filterMap fun i => m.pool[i]?
  /-- All others are counted as merged. -/
  mergedCount : m.mergedCount = ((List.range xs.length).filter fun i => IsAbsorbed xs i).length
  total : m.findings.length + m.mergedCount = xs.length
  /-- An absorbed finding is folded into one other, the first with its key, which is listed. -/
  absorber : ∀ i, IsAbsorbed xs i → ∃ t < i, Absorbs xs t i ∧ ¬ IsAbsorbed xs t ∧
    ∀ u, Absorbs xs u i → u = t
  /-- A finding that absorbs others is a merge of them. -/
  merged : ∀ t x, xs[t]? = some x → absorbedInto xs t ≠ [] →
    ∃ f, m.pool[t]? = some f ∧ x.finding.IsMerge (absorbedInto xs t) f
  /-- Every other finding is as it was added. -/
  kept : ∀ i x, xs[i]? = some x → absorbedInto xs i = [] → m.pool[i]? = some x.finding

namespace Merger

variable {m : Merger} {xs : List Addition}

theorem Shows.findings_eq (h : m.Shows xs) :
    m.findings = (listed xs).filterMap fun i => m.pool[i]? := by
  rw [findings, h.order]

/-- Every listed position has a finding. -/
theorem Shows.length_findings (h : m.Shows xs) : m.findings.length = (listed xs).length := by
  rw [h.findings_eq, List.filterMap_length_eq_length]
  intro i hi
  have hlt : i < m.pool.length := by
    rw [h.size]
    exact List.mem_range.mp (List.mem_filter.mp hi).1
  rw [List.getElem?_eq_getElem hlt]
  rfl

/-- Every addition is either listed or counted as merged. -/
theorem Shows.total (h : m.Shows xs) : m.findings.length + m.mergedCount = xs.length := by
  have hsplit := List.length_eq_countP_add_countP (fun i => decide (IsAbsorbed xs i))
    (l := List.range xs.length)
  have hlisted : (listed xs).length =
      (List.range xs.length).countP fun i => ¬ decide (IsAbsorbed xs i) = true := by
    rw [listed, ← List.countP_eq_length_filter]
    simp only [decide_eq_true_eq]
  have hunlisted : (unlisted xs).length =
      (List.range xs.length).countP fun i => decide (IsAbsorbed xs i) := by
    rw [unlisted, ← List.countP_eq_length_filter]
  rw [List.length_range] at hsplit
  rw [h.length_findings, mergedCount, h.merges]
  omega

theorem Shows.meetsReference (h : m.Shows xs) : m.MeetsReference xs where
  size := h.size
  findings := h.findings_eq
  mergedCount := h.merges
  total := h.total
  absorber i hi := by
    obtain ⟨t, habsorbs, hunique⟩ := hi.exists_absorbs
    exact ⟨t, habsorbs.lt, habsorbs, habsorbs.not_isAbsorbed, hunique⟩
  merged t x hx hne := by
    refine ⟨_, ?_, Finding.isMerge_merged x.finding (absorbedInto xs t)⟩
    rw [h.pool, final, hx, Option.map_some, Finding.absorbAll_eq_merged _ hne]
  kept i x hx hnil := by
    rw [h.pool, final, hx, Option.map_some, hnil]
    rfl

/-- **Every session meets the reference.** Whatever findings detectors and tools add to a new merger
and in whatever order, what is listed, absorbed and changed is what the reference says. -/
theorem ofBatches_meetsReference (bs : List Batch) :
    (ofBatches bs).MeetsReference (bs.flatMap Batch.additions) :=
  (shows_ofBatches bs).meetsReference

end Merger

end TraceAudit
