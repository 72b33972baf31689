import TraceAudit.Proofs.Detector.Reports

/-!
# The first write behind a call

In a flat trace the detector of reentrancy reports one pair of steps at most. Which pair this is
does not depend on how it is looked for: among all external calls and the writes in the windows
behind them, no deeper than the call, it is the pair with the first call, and with the first write
for this call (`FlatReentrancy.FirstAt`). A search that ends at its first hit has to show for it
that no call before had a write in its window, and that what was passed over behind the call was no
such write.

The main statement is `reportsFirstWrite_of_not_hasFrames`.
-/

namespace TraceAudit

namespace FlatReentrancy

variable {window i j : Nat} {s store : Step} {steps rest : List Step} {r : FlatReentrancy}

/-- The trace has an external call at one position and a write no deeper than the call at another
one, in the window behind the call. -/
structure ShownAt (window : Nat) (steps : List Step) (i j : Nat) (r : FlatReentrancy) : Prop where
  call : steps[i]? = some r.call
  store : steps[j]? = some r.store
  isExternalCall : r.call.isExternalCall = true
  isWrite : r.store.op = Opcode.storageWrite
  depth : r.store.depth ≤ r.call.depth
  behind : i < j
  within : j ≤ i + window

/-- There is no such pair with an earlier call, and none of the same call with an earlier write. -/
structure FirstAt (window : Nat) (steps : List Step) (i j : Nat) (r : FlatReentrancy) : Prop
    extends ShownAt window steps i j r where
  call_first : ∀ i' j' r', ShownAt window steps i' j' r' → i ≤ i'
  store_first : ∀ j' r', ShownAt window steps i j' r' → j ≤ j'

theorem exposes_iff {call : Step} :
    exposes call store = true ↔ store.op = Opcode.storageWrite ∧ store.depth ≤ call.depth := by
  rw [exposes, Bool.and_eq_true, decide_eq_true_eq, decide_eq_true_eq]

/-! ### Pairs of a longer trace -/

theorem shownAt_cons_succ_iff :
    ShownAt window (s :: rest) (i + 1) (j + 1) r ↔ ShownAt window rest i j r := by
  constructor
  · intro h
    have hwithin := h.within
    exact ⟨h.call, h.store, h.isExternalCall, h.isWrite, h.depth, Nat.lt_of_succ_lt_succ h.behind,
      by omega⟩
  · intro h
    have hwithin := h.within
    exact ⟨h.call, h.store, h.isExternalCall, h.isWrite, h.depth, Nat.succ_lt_succ h.behind,
      by omega⟩

theorem shownAt_cons_zero_iff : ShownAt window (s :: rest) 0 (j + 1) r ↔
    s = r.call ∧ s.isExternalCall = true ∧ (rest.take window)[j]? = some r.store ∧
      exposes s r.store = true := by
  rw [exposes_iff]
  constructor
  · intro h
    obtain rfl : s = r.call := Option.some.inj h.call
    have hwithin := h.within
    refine ⟨rfl, h.isExternalCall, ?_, h.isWrite, h.depth⟩
    rw [List.getElem?_take_of_lt (by omega)]
    exact h.store
  · rintro ⟨rfl, hcall, hstore, hwrite, hdepth⟩
    have hlt : j < window := by
      have hlength := (List.getElem?_eq_some_iff.mp hstore).1
      rw [List.length_take] at hlength
      omega
    rw [List.getElem?_take_of_lt hlt] at hstore
    exact ⟨rfl, hstore, hcall, hwrite, hdepth, Nat.succ_pos j, by omega⟩

/-- A write is never the first step of a trace, since its call comes before it. -/
theorem ShownAt.exists_eq_succ (h : ShownAt window steps i j r) : ∃ k, j = k + 1 :=
  Nat.exists_eq_add_one_of_ne_zero (Nat.ne_zero_of_lt h.behind)

/-! ### The search -/

/-- What the search behind the first step of a trace finds is the first pair of the trace. -/
theorem exists_firstAt_zero
    (h : firstWithin s.isExternalCall window rest (exposes s) = some store) :
    ∃ j, FirstAt window (s :: rest) 0 j ⟨s, store⟩ := by
  rw [firstWithin] at h
  split at h
  case isFalse => cases h
  case isTrue hcall =>
    obtain ⟨hexposes, k, hk, rfl, hbefore⟩ := List.find?_eq_some_iff_getElem.mp h
    have hshown : ShownAt window (s :: rest) 0 (k + 1) ⟨s, (rest.take window)[k]⟩ :=
      shownAt_cons_zero_iff.mpr ⟨rfl, hcall, List.getElem?_eq_getElem hk, hexposes⟩
    refine ⟨k + 1, hshown, fun i' _ _ _ => Nat.zero_le i', fun j' r' h' => ?_⟩
    -- a write before would have been found
    obtain ⟨k', rfl⟩ := h'.exists_eq_succ
    obtain ⟨rfl, -, hstore, hexposes'⟩ := shownAt_cons_zero_iff.mp h'
    refine Nat.succ_le_succ (Nat.le_of_not_lt fun hlt => ?_)
    obtain ⟨hk', hget⟩ := List.getElem?_eq_some_iff.mp hstore
    have hnot := hbefore k' hlt
    rw [hget, hexposes'] at hnot
    exact Bool.false_ne_true hnot

/-- If the search behind the first step of a trace finds nothing, the step belongs to no pair. -/
theorem not_shownAt_zero (h : firstWithin s.isExternalCall window rest (exposes s) = none)
    (hshown : ShownAt window (s :: rest) 0 j r) : False := by
  obtain ⟨k, rfl⟩ := hshown.exists_eq_succ
  obtain ⟨rfl, hcall, hstore, hexposes⟩ := shownAt_cons_zero_iff.mp hshown
  rw [firstWithin, if_pos hcall] at h
  exact List.find?_eq_none.mp h _ (List.mem_of_getElem? hstore) hexposes

/-- The first pair stays the first one behind a step that belongs to none. -/
theorem FirstAt.cons (hs : ∀ j' r', ¬ ShownAt window (s :: rest) 0 j' r')
    (h : FirstAt window rest i j r) : FirstAt window (s :: rest) (i + 1) (j + 1) r := by
  refine ⟨shownAt_cons_succ_iff.mpr h.toShownAt, fun i' j' r' h' => ?_, fun j' r' h' => ?_⟩
  · obtain ⟨k', rfl⟩ := h'.exists_eq_succ
    cases i' with
    | zero => exact absurd h' (hs _ _)
    | succ i' => exact Nat.succ_le_succ (h.call_first i' k' r' (shownAt_cons_succ_iff.mp h'))
  · obtain ⟨k', rfl⟩ := h'.exists_eq_succ
    exact Nat.succ_le_succ (h.store_first k' r' (shownAt_cons_succ_iff.mp h'))

/-- **What the search finds is the first pair.** The induction is on the trace, as the search is. -/
theorem exists_firstAt_of_first? (h : first? window steps = some r) :
    ∃ i j, FirstAt window steps i j r := by
  induction steps with
  | nil => exact nomatch h
  | cons s rest ih =>
    rw [first?_cons] at h
    cases hfound : firstWithin s.isExternalCall window rest (exposes s) with
    | some store =>
      rw [hfound] at h
      obtain rfl : ⟨s, store⟩ = r := Option.some.inj h
      exact ⟨0, exists_firstAt_zero hfound⟩
    | none =>
      rw [hfound] at h
      obtain ⟨i, j, hfirst⟩ := ih h
      exact ⟨i + 1, j + 1, hfirst.cons fun j' r' => not_shownAt_zero hfound⟩

/-- **If the search finds nothing, there is no pair.** -/
theorem not_shownAt_of_first? (h : first? window steps = none) :
    ¬ ∃ i j r, ShownAt window steps i j r := by
  induction steps with
  | nil => exact fun ⟨i, j, r, hshown⟩ => nomatch hshown.call
  | cons s rest ih =>
    rw [first?_cons, Option.or_eq_none_iff, Option.map_eq_none_iff] at h
    rintro ⟨i, j, r, hshown⟩
    obtain ⟨k, rfl⟩ := hshown.exists_eq_succ
    cases i with
    | zero => exact not_shownAt_zero h.1 hshown
    | succ i => exact ih h.2 ⟨i, k, r, shownAt_cons_succ_iff.mp hshown⟩

/-! ### The report -/

/-- A finding names a call and a write, and how far they are from each other. -/
structure NamedBy (r : FlatReentrancy) (f : Finding) : Prop where
  call_step : f.evidenceOf "call_step" = .int r.call.index
  sstore_step : f.evidenceOf "sstore_step" = .int r.store.index
  steps_between : f.evidenceOf "steps_between" = .int (r.store.index - r.call.index)

theorem namedBy_finding (r : FlatReentrancy) (id : String) :
    r.NamedBy (Detector.flatReentrancy.info.finding id r.draft) :=
  ⟨rfl, rfl, rfl⟩

/-- In an ingested trace the indices of the steps of a pair are their positions. -/
theorem ShownAt.index_eq {c : Context} (hindexed : c.Indexed)
    (h : ShownAt window c.steps.toList i j r) : r.call.index = i ∧ r.store.index = j :=
  ⟨hindexed i r.call (by rw [← Array.getElem?_toList]; exact h.call),
    hindexed j r.store (by rw [← Array.getElem?_toList]; exact h.store)⟩

end FlatReentrancy

open FlatReentrancy in
/-- **What the detector of reentrancy reports of a flat trace.** -/
structure Context.ReportsFirstWrite (c : Context) : Prop where
  /-- There is one finding exactly if there is an exposed call. -/
  one_iff : ∀ ids, (∃ f, (Detector.flatReentrancy.run c ids).1.outcome = .ok [f]) ↔
    ∃ i j r, ShownAt c.settings.reentrancyFallbackWindow c.steps.toList i j r
  /-- This finding names the first such call and the first write behind it. -/
  first : ∀ ids f, (Detector.flatReentrancy.run c ids).1.outcome = .ok [f] → ∃ i j r,
    FirstAt c.settings.reentrancyFallbackWindow c.steps.toList i j r ∧ r.NamedBy f
  /-- Otherwise there is none. -/
  none : (¬ ∃ i j r, ShownAt c.settings.reentrancyFallbackWindow c.steps.toList i j r) →
    ∀ ids, (Detector.flatReentrancy.run c ids).1.outcome = .ok []
  /-- In an ingested trace the distance that the finding tells is within the window. -/
  steps_between : c.Indexed → ∀ ids f,
    (Detector.flatReentrancy.run c ids).1.outcome = .ok [f] → ∃ n : Int,
      f.evidenceOf "steps_between" = .int n ∧ 1 ≤ n ∧ n ≤ c.settings.reentrancyFallbackWindow

theorem reportsFirstWrite_of_not_shownAt {c : Context}
    (hreports : Detector.flatReentrancy.Reports c FlatReentrancy.draft [])
    (hnone : ¬ ∃ i j r,
      FlatReentrancy.ShownAt c.settings.reentrancyFallbackWindow c.steps.toList i j r) :
    c.ReportsFirstWrite := by
  have hnot : ∀ ids f, (Detector.flatReentrancy.run c ids).1.outcome ≠ .ok [f] := by
    intro ids f hf
    cases (hreports ids).symm.trans hf
  exact {
    one_iff := fun ids => iff_of_false (fun ⟨f, hf⟩ => hnot ids f hf) hnone
    first := fun ids f hf => absurd hf (hnot ids f)
    none := fun _ ids => hreports ids
    steps_between := fun _ ids f hf => absurd hf (hnot ids f) }

theorem reportsFirstWrite_of_firstAt {c : Context} {i j : Nat} {r : FlatReentrancy}
    (hreports : Detector.flatReentrancy.Reports c FlatReentrancy.draft [r])
    (hfirst : FlatReentrancy.FirstAt c.settings.reentrancyFallbackWindow c.steps.toList i j r) :
    c.ReportsFirstWrite := by
  have hone := hreports.exists_one r.namedBy_finding
  have hnamed : ∀ ids f, (Detector.flatReentrancy.run c ids).1.outcome = .ok [f] →
      r.NamedBy f := by
    intro ids f hf
    obtain ⟨f', hf', hnamed⟩ := hone ids
    cases hf.symm.trans hf'
    exact hnamed
  exact {
    one_iff := fun ids => iff_of_true ((hone ids).imp fun f hf => hf.1) ⟨i, j, r, hfirst.toShownAt⟩
    first := fun ids f hf => ⟨i, j, r, hfirst, hnamed ids f hf⟩
    none := fun hnone => absurd ⟨i, j, r, hfirst.toShownAt⟩ hnone
    steps_between := by
      intro hindexed ids f hf
      obtain ⟨hcall, hstore⟩ := hfirst.index_eq hindexed
      have hbehind := hfirst.behind
      have hwithin := hfirst.within
      exact ⟨_, (hnamed ids f hf).steps_between, by omega, by omega⟩ }

/-- **The first exposed call of a flat trace is reported, with its first write.** Without frames the
detector of reentrancy returns on every list of steps, whatever indices they carry. -/
theorem reportsFirstWrite_of_not_hasFrames (c : Context) (h : c.hasFrames = false) :
    c.ReportsFirstWrite := by
  have hreports := Detector.flatReentrancy_reports c
  rw [FlatReentrancy.found, if_neg (Bool.eq_false_iff.mp h)] at hreports
  cases hr : FlatReentrancy.first? c.settings.reentrancyFallbackWindow c.steps.toList with
  | none =>
    rw [hr] at hreports
    exact reportsFirstWrite_of_not_shownAt hreports (FlatReentrancy.not_shownAt_of_first? hr)
  | some r =>
    rw [hr] at hreports
    obtain ⟨i, j, hfirst⟩ := FlatReentrancy.exists_firstAt_of_first? hr
    exact reportsFirstWrite_of_firstAt hreports hfirst

/-- A call whose write comes late, a delegated call with a deeper write before one of its own depth,
and a call with nothing behind it. -/
def lateWriteTrace : List Step := [
  ⟨0, 0, "CALL", 900, 700, 1, [], []⟩,
  ⟨1, 1, "SSTORE", 800, 100, 2, [], []⟩,
  ⟨2, 2, "DELEGATECALL", 700, 50, 2, [], []⟩,
  ⟨3, 3, "SSTORE", 600, 100, 3, [], []⟩,
  ⟨4, 4, "SSTORE", 500, 100, 2, [], []⟩,
  ⟨5, 5, "SSTORE", 400, 100, 1, [], []⟩,
  ⟨6, 6, "CALL", 300, 50, 1, [], []⟩]

/-- The context of this trace with a window of the given width. -/
def lateWriteContext (window : Nat) : Context where
  steps := lateWriteTrace.toArray
  settings := { reentrancyFallbackWindow := window }

/-- The narrow window ends before the write of the first call, the wide one behind it. -/
theorem reportsFirstWrite_of_not_hasFrames_lateWriteTrace :
    (∀ window, (lateWriteContext window).hasFrames = false) ∧
    (∀ window, (lateWriteContext window).Indexed) ∧
    (FlatReentrancy.found (lateWriteContext 4)).map (fun r => (r.call.index, r.store.index)) =
      some (2, 4) ∧
    (FlatReentrancy.found (lateWriteContext 5)).map (fun r => (r.call.index, r.store.index)) =
      some (0, 5) ∧
    (lateWriteContext 4).ReportsFirstWrite ∧ (lateWriteContext 5).ReportsFirstWrite := by
  have hingest : Step.ingest .bottomFirst (.entries (lateWriteTrace.map .step)) =
      .ok lateWriteTrace := rfl
  refine ⟨fun _ => rfl, fun _ => Context.indexed_of_ingest hingest _ _, by decide, by decide,
    ?_, ?_⟩
  · exact reportsFirstWrite_of_not_hasFrames (lateWriteContext 4) rfl
  · exact reportsFirstWrite_of_not_hasFrames (lateWriteContext 5) rfl

end TraceAudit
