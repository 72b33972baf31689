import TraceAudit.Proofs.Analysis

/-!
# Ingested traces

In whatever form a trace is handed over, it is ingested element by element
(`exists_ofEntries_of_ingest`), and a step that has been ingested carries the position of its
element (`index_of_ingest`). So detectors may take the index of a step for its place in the trace.
-/

namespace TraceAudit.Step

variable {order : StackOrder} {source : TraceSource} {entries : List TraceEntry} {e : TraceEntry}
  {s : Step} {steps : List Step} {position i : Nat}

/-- What has been ingested was a sequence of elements. -/
theorem exists_ofEntries_of_ingest (h : ingest order source = .ok steps) :
    ∃ entries, ofEntries order entries = .ok steps := by
  unfold ingest at h
  split at h
  case h_1 entries => exact ⟨entries, h⟩
  case h_2 fields =>
    obtain ⟨items, -, h⟩ := exists_of_bind_eq_ok h
    exact ⟨_, h⟩
  case h_3 v =>
    obtain ⟨entries, -, h⟩ := exists_of_bind_eq_ok h
    exact ⟨entries, h⟩

theorem index_of_ofLog {index : Int} {log : Fields} (h : ofLog index log order = .ok s) :
    s.index = index := by
  -- the fields of an object are read one after the other, and none of them is an index
  obtain ⟨elements, -, h⟩ := exists_of_bind_eq_ok h
  obtain ⟨stack, -, h⟩ := exists_of_bind_eq_ok h
  obtain ⟨elements, -, h⟩ := exists_of_bind_eq_ok h
  obtain ⟨memory, -, h⟩ := exists_of_bind_eq_ok h
  obtain ⟨pc, -, h⟩ := exists_of_bind_eq_ok h
  obtain ⟨op, -, h⟩ := exists_of_bind_eq_ok h
  obtain ⟨gas, -, h⟩ := exists_of_bind_eq_ok h
  obtain ⟨gasCost, -, h⟩ := exists_of_bind_eq_ok h
  obtain ⟨depth, -, h⟩ := exists_of_bind_eq_ok h
  cases h
  rfl

theorem index_of_ofEntry (h : ofEntry order position e = .ok s) : s.index = position := by
  unfold ofEntry at h
  split at h
  case h_1 =>
    cases h
    rfl
  case h_2 => exact index_of_ofLog h
  case h_3 => exact nomatch h

theorem index_of_ofEntriesFrom (h : ofEntriesFrom order position entries = .ok steps)
    (hs : steps[i]? = some s) : s.index = (position + i : Nat) := by
  induction entries generalizing position steps i with
  | nil =>
    cases h
    exact nomatch hs
  | cons e entries ih =>
    obtain ⟨first, hfirst, h⟩ := exists_of_bind_eq_ok h
    obtain ⟨rest, hrest, h⟩ := exists_of_bind_eq_ok h
    cases h
    cases i with
    | zero =>
      cases hs
      exact index_of_ofEntry hfirst
    | succ i =>
      rw [ih hrest hs, Nat.add_right_comm, Nat.add_assoc]

/-- As many steps are ingested as there are elements. -/
theorem length_of_ofEntriesFrom (h : ofEntriesFrom order position entries = .ok steps) :
    steps.length = entries.length := by
  induction entries generalizing position steps with
  | nil =>
    cases h
    rfl
  | cons e entries ih =>
    obtain ⟨first, -, h⟩ := exists_of_bind_eq_ok h
    obtain ⟨rest, hrest, h⟩ := exists_of_bind_eq_ok h
    cases h
    rw [List.length_cons, List.length_cons, ih hrest]

theorem map_index_of_ofEntries (h : ofEntries order entries = .ok steps) :
    steps.map Step.index = (List.range entries.length).map fun i : Nat => (i : Int) := by
  refine List.ext_getElem? fun i => ?_
  rw [List.getElem?_map, List.getElem?_map]
  cases hs : steps[i]? with
  | none =>
    have hlength := length_of_ofEntriesFrom h
    have hi : steps.length ≤ i := List.getElem?_eq_none_iff.mp hs
    rw [List.getElem?_eq_none (by rw [List.length_range, ← hlength]; exact hi)]
    rfl
  | some s =>
    have hlength := length_of_ofEntriesFrom h
    obtain ⟨hi, -⟩ := List.getElem?_eq_some_iff.mp hs
    rw [List.getElem?_range (hlength ▸ hi), Option.map_some, Option.map_some,
      index_of_ofEntriesFrom h hs, Nat.zero_add]

/-- **The index of an ingested step is its position.** -/
theorem index_of_ingest (h : ingest order source = .ok steps) (hs : steps[i]? = some s) :
    s.index = i := by
  obtain ⟨entries, h⟩ := exists_ofEntries_of_ingest h
  rw [index_of_ofEntriesFrom h hs, Nat.zero_add]

end TraceAudit.Step
