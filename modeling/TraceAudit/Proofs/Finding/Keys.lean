import TraceAudit.Finding.Merge
import TraceAudit.Proofs.Value.Display

/-!
# Keys that can be written

Merging fails at the first finding whose key cannot be written, and it does nothing else than the
operations that do not fail (`Merger.insertDetected?_eq`, `Merger.insertStatic?_eq`). So what
merging comes to is told by two things: by the keys, one by one, which have nothing to do with each
other or with the order of the findings, and by these operations.
-/

namespace TraceAudit

/-- A fold that checks each element before it goes on checks all of them and is the fold without the
checks. -/
theorem foldlM_eq_map {α β σ : Type} {step? : σ → α → Except Fault σ} {step : σ → α → σ}
    {check : α → Except Fault β} (h : ∀ s a, step? s a = (check a).map fun _ => step s a)
    (as : List α) (s : σ) : as.foldlM step? s = (as.mapM check).map fun _ => as.foldl step s := by
  induction as generalizing s with
  | nil => rfl
  | cons a as ih =>
    rw [List.foldlM_cons, List.mapM_cons, h]
    cases check a with
    | error fault => rfl
    | ok b =>
      change as.foldlM step? (step s a) = ((as.mapM check) >>= _).map _
      rw [ih]
      cases as.mapM check with
      | error fault => rfl
      | ok bs => rfl

namespace Finding

variable {f : Finding}

theorem placePart_of_placePart? {fields : Fields} {name part : String}
    (h : placePart? fields name = .ok part) : placePart fields name = part := by
  rw [placePart?] at h
  rw [placePart]
  split at h
  · next hgiven =>
    obtain ⟨s, hs, h⟩ := exists_of_bind_eq_ok h
    rw [if_pos hgiven, Value.eq_display_of_display? hs]
    exact Except.ok.inj h
  · next hgiven =>
    rw [if_neg hgiven]
    exact Except.ok.inj h

/-- A key that can be written is the key of the finding. -/
theorem mergeKey_of_mergeKey? {key : MergeKey} (h : f.mergeKey? = .ok key) : f.mergeKey = key := by
  rw [mergeKey?] at h
  rw [mergeKey, place, place?]
  dsimp only at h
  generalize f.evidence.firstFields.get "frame_id" = frame at h ⊢
  split at h
  · obtain ⟨contract, hcontract, h⟩ := exists_of_bind_eq_ok h
    obtain ⟨function, hfunction, h⟩ := exists_of_bind_eq_ok h
    cases h
    rw [placePart_of_placePart? hcontract, placePart_of_placePart? hfunction]
    dsimp only
    split <;> rfl
  · next hframe =>
    obtain ⟨s, hs, h⟩ := exists_of_bind_eq_ok h
    cases h
    rw [← Value.eq_display_of_display? hs]
    rfl

end Finding

namespace Merger

variable {fs : List Finding}

/-- A finding that has just been put into the pool is found there. -/
theorem keyAt?_push (m : Merger) (f : Finding) :
    (m.push f).keyAt? m.pool.length = some <$> f.mergeKey? := by
  have hf : (m.push f).pool[m.pool.length]? = some f := List.getElem?_concat_length
  rw [keyAt?, hf]

theorem addDetected?_push (m : Merger) (f : Finding) :
    (m.push f).addDetected? m.pool.length =
      f.mergeKey?.map fun _ => (m.push f).addDetected m.pool.length := by
  rw [addDetected?, keyAt?_push]
  cases f.mergeKey? <;> rfl

theorem addStatic?_push (m : Merger) (f : Finding) :
    (m.push f).addStatic? m.pool.length =
      f.mergeKey?.map fun _ => (m.push f).addStatic m.pool.length := by
  rw [addStatic?, keyAt?_push]
  cases f.mergeKey? <;> rfl

/-- **Findings of detectors are added as soon as their keys can be written.** -/
theorem insertDetected?_eq (m : Merger) (fs : List Finding) :
    m.insertDetected? fs = (fs.mapM Finding.mergeKey?).map fun _ => m.insertDetected fs :=
  foldlM_eq_map addDetected?_push fs m

/-- **Findings of another tool are added as soon as their keys can be written.** -/
theorem insertStatic?_eq (m : Merger) (fs : List Finding) :
    m.insertStatic? fs = (fs.mapM Finding.mergeKey?).map fun _ => m.insertStatic fs :=
  foldlM_eq_map addStatic?_push fs m

end Merger

/-- **Merging returns what the operations that do not fail make of the findings**, as soon as the
keys of all of them can be written. -/
theorem Finding.mergeAll?_eq (detected : List Finding) (sources : List (List Finding)) :
    mergeAll? detected sources = do
      let _ ← detected.mapM mergeKey?
      let _ ← sources.mapM fun fs => fs.mapM mergeKey?
      return mergeAll detected sources := by
  rw [mergeAll?, mergeAll, Merger.insertDetected?_eq]
  cases detected.mapM mergeKey? with
  | error fault => rfl
  | ok keys =>
    change (sources.foldlM Merger.insertStatic? _ >>= _) = (_ >>= _)
    rw [foldlM_eq_map Merger.insertStatic?_eq]
    cases sources.mapM fun fs => fs.mapM mergeKey? <;> rfl

end TraceAudit
