import Mathlib.Data.List.Forall2
import TraceAudit.Log.Session
import TraceAudit.Proofs.Faults
import TraceAudit.Proofs.Fields

/-!
# Handlers and their filters

Filters work one after the other (`Filter.judgeAll_append`). Behind all others, the tags of runs
that are open one inside of the other come to this: a record from their scope that the others let
pass gets the innermost run, and nothing else happens (`Filter.judgeAll_append_tags`).

What is delivered depends on the handlers only through their verdicts on the records that come to
them (`Session.deliver_congr`), and whatever is delivered has passed the filters of the handler that
takes it (`Session.exists_of_mem_deliver`).
-/

namespace TraceAudit.Log

variable {scope : String} {run : Value} {runs : List Value} {r : Record} {h h' : Handler}

/-! ### Records inside of runs -/

namespace Record

/-- A record with the innermost run on it, if there is one and the record comes from the scope. -/
def inRuns (scope : String) (runs : List Value) (r : Record) : Record :=
  match runs with
  | [] => r
  | run :: _ => if RunTag.isWithin r.channel scope then r.withDetail "run_id" run else r

@[simp] theorem inRuns_nil (scope : String) (r : Record) : r.inRuns scope [] = r :=
  rfl

@[simp] theorem channel_inRuns (scope : String) (runs : List Value) (r : Record) :
    (r.inRuns scope runs).channel = r.channel := by
  unfold inRuns
  split
  · rfl
  · split <;> rfl

theorem inRuns_of_not_isWithin (h : RunTag.isWithin r.channel scope = false) (runs : List Value) :
    r.inRuns scope runs = r := by
  unfold inRuns
  split
  · rfl
  · simp [h]

theorem get?_inRuns (h : RunTag.isWithin r.channel scope) (run : Value) (outer : List Value) :
    (r.inRuns scope (run :: outer)).details.get? "run_id" = some run := by
  simp [inRuns, h, withDetail, Fields.get?_put_self]

/-- A further run takes the place of the one that was the innermost. -/
theorem inRuns_inRuns (scope : String) (run : Value) (runs : List Value) (r : Record) :
    (r.inRuns scope runs).inRuns scope [run] = r.inRuns scope (run :: runs) := by
  by_cases h : RunTag.isWithin r.channel scope
  · cases runs with
    | nil => rfl
    | cons outer rest => simp [inRuns, withDetail, h, Fields.put_put]
  · rw [Bool.not_eq_true] at h
    simp [inRuns_of_not_isWithin, h]

end Record

/-- A verdict inside of runs: a record that passes has the innermost run on it. -/
def Verdict.inRuns (scope : String) (runs : List Value) (v : Verdict) : Verdict :=
  { v with record := if v.passes then v.record.inRuns scope runs else v.record }

@[simp] theorem Verdict.channel_inRuns (scope : String) (runs : List Value) (v : Verdict) :
    (v.inRuns scope runs).record.channel = v.record.channel := by
  unfold Verdict.inRuns
  split <;> simp

theorem Verdict.inRuns_of_not_isWithin {v : Verdict}
    (h : RunTag.isWithin v.record.channel scope = false) (runs : List Value) :
    v.inRuns scope runs = v := by
  simp [Verdict.inRuns, Record.inRuns_of_not_isWithin h]

/-! ### Filters -/

namespace Filter

theorem judgeAll_append (r : Record) (fs gs : List Filter) :
    judgeAll r (fs ++ gs) =
      judgeAll r fs >>= fun v => if v.passes then judgeAll v.record gs else .ok v := by
  induction fs generalizing r with
  | nil => rfl
  | cons f fs ih =>
    rw [List.cons_append, judgeAll, judgeAll, bind_assoc]
    congr 1
    funext v
    by_cases h : v.passes
    · simp [h, ih]
    · simp [h, bind, Except.bind]

theorem judgeAll_tag (run : Value) (scope : String) (r : Record) :
    judgeAll r [tag ⟨run, .text scope⟩] = .ok { record := r.inRuns scope [run] } :=
  rfl

/-- **The innermost run counts.** -/
theorem judgeAll_append_tags (scope : String) (runs : List Value) (r : Record) (fs : List Filter) :
    judgeAll r (fs ++ (runs.map fun run => tag ⟨run, .text scope⟩).reverse) =
      (judgeAll r fs).map (Verdict.inRuns scope runs) := by
  induction runs with
  | nil =>
    have hid : Verdict.inRuns scope [] = id := by
      funext v
      simp [Verdict.inRuns]
    rw [List.map_nil, List.reverse_nil, List.append_nil, hid, Except.map_id, id]
  | cons run runs ih =>
    rw [List.map_cons, List.reverse_cons, ← List.append_assoc, judgeAll_append, ih]
    cases judgeAll r fs with
    | error fault => rfl
    | ok v =>
      -- the tag comes to the record only if the filters before it let it pass
      by_cases h : v.passes
      · simp [Except.map, bind, Except.bind, Verdict.inRuns, h, judgeAll_tag, Record.inRuns_inRuns]
      · simp [Except.map, bind, Except.bind, Verdict.inRuns, h]

end Filter

/-! ### Handlers -/

namespace Handler

variable {number : Nat} {f : Filter}

@[simp] theorem id_addFilter (number : Nat) (f : Filter) (h : Handler) :
    (h.addFilter number f).id = h.id := by
  unfold addFilter
  split <;> rfl

@[simp] theorem id_removeFilter (number : Nat) (h : Handler) : (h.removeFilter number).id = h.id :=
  rfl

theorem not_beq_of_notMem (hnumber : number ∉ h.filters.map Prod.fst) :
    ∀ g ∈ h.filters, ¬ g.1 == number :=
  fun g hg heq => hnumber (List.mem_map.mpr ⟨g, hg, eq_of_beq heq⟩)

theorem addFilter_of_notMem (hnumber : number ∉ h.filters.map Prod.fst) (f : Filter) :
    h.addFilter number f = { h with filters := h.filters ++ [(number, f)] } := by
  have hany : ¬ h.filters.any (·.1 == number) := by
    intro hany
    obtain ⟨g, hg, heq⟩ := List.any_eq_true.mp hany
    exact not_beq_of_notMem hnumber g hg heq
  rw [addFilter, if_neg hany]

/-- A filter that is there is not put there again. -/
theorem addFilter_addFilter (number : Nat) (f : Filter) (h : Handler) :
    (h.addFilter number f).addFilter number f = h.addFilter number f := by
  by_cases hany : h.filters.any (·.1 == number)
  · simp only [addFilter, hany, if_true]
  · simp [addFilter, hany]

theorem removeFilter_of_notMem (hnumber : number ∉ h.filters.map Prod.fst) :
    h.removeFilter number = h := by
  rw [removeFilter, List.eraseP_of_forall_not (not_beq_of_notMem hnumber)]

/-- Only the filter itself is taken away. -/
theorem removeFilter_addFilter (hnumber : number ∉ h.filters.map Prod.fst) (f : Filter) :
    (h.addFilter number f).removeFilter number = h := by
  have herase : (h.filters ++ [(number, f)]).eraseP (·.1 == number) = h.filters := by
    rw [List.eraseP_append_right _ (not_beq_of_notMem hnumber)]
    simp
  rw [addFilter_of_notMem hnumber, removeFilter, herase]

/-- A handler that carries the tags of runs behind its other filters, the innermost run last. -/
def Marked (scope : String) (runs : List Value) (h h' : Handler) : Prop :=
  ∃ added : List (Nat × Filter), h' = { h with filters := h.filters ++ added } ∧
    added.map Prod.snd = (runs.map fun run => Filter.tag ⟨run, .text scope⟩).reverse

theorem marked_nil_iff : h.Marked scope [] h' ↔ h' = h := by
  simp [Marked]

theorem Marked.addFilter (hmarked : h.Marked scope runs h')
    (hnumber : number ∉ h'.filters.map Prod.fst) (run : Value) :
    h.Marked scope (run :: runs) (h'.addFilter number (.tag ⟨run, .text scope⟩)) := by
  obtain ⟨added, rfl, hadded⟩ := hmarked
  refine ⟨added ++ [(number, .tag ⟨run, .text scope⟩)], ?_, ?_⟩
  · rw [addFilter_of_notMem hnumber, List.append_assoc]
  · rw [List.map_append, hadded, List.map_cons (l := runs), List.reverse_cons]
    rfl

/-- A marked handler judges as it would without marks, and puts the innermost run on what passes. -/
theorem Marked.judge (hmarked : h.Marked scope runs h') (r : Record) :
    h'.judge r = (h.judge r).map (Verdict.inRuns scope runs) := by
  obtain ⟨added, rfl, hadded⟩ := hmarked
  rw [Handler.judge, List.map_append, hadded]
  exact Filter.judgeAll_append_tags scope runs r (h.filters.map Prod.snd)

end Handler

/-! ### Deliveries -/

namespace Session

/-- Handlers that judge alike take the same of a record, if it stays among those on which they judge
alike. -/
theorem deliver_congr (alike : Record → Prop) {hs hs' : List Handler}
    (hjudge : List.Forall₂ (fun h h' => h' = { h with filters := h'.filters } ∧
      ∀ r, alike r → h'.judge r = h.judge r ∧ ∀ v, h.judge r = .ok v → alike v.record) hs hs')
    (hr : alike r) : deliver r hs' = deliver r hs := by
  induction hjudge generalizing r with
  | nil => rfl
  | @cons h h' hs hs' hh _ ih =>
    obtain ⟨hsame, halike⟩ := hh
    obtain ⟨heq, hkeeps⟩ := halike r hr
    rw [deliver, deliver, heq, hsame]
    split
    · exact ih hr
    · cases hv : h.judge r with
      | error fault => rfl
      | ok v =>
        simp only [ih (hkeeps v hv)]

/-- What is delivered has passed the filters of the handler that takes it. What all handlers keep up
on the way there holds of it. -/
theorem exists_of_mem_deliver (kept : Record → Prop) {hs : List Handler} {d : Delivery}
    (hkeeps : ∀ h ∈ hs, ∀ r v, kept r → h.judge r = .ok v → kept v.record) (hr : kept r)
    (hd : d ∈ (deliver r hs).1) :
    ∃ h ∈ hs, ∃ r' v, h.judge r' = .ok v ∧ v.passes ∧ kept v.record ∧
      d = ⟨h.id, h.form, v.record⟩ := by
  induction hs generalizing r with
  | nil => exact absurd hd List.not_mem_nil
  | cons h hs ih =>
    have hlater : ∀ r, kept r → d ∈ (deliver r hs).1 → ∃ g ∈ h :: hs, ∃ r' v,
        g.judge r' = .ok v ∧ v.passes ∧ kept v.record ∧ d = ⟨g.id, g.form, v.record⟩ := by
      intro r hr hd
      obtain ⟨g, hg, hfound⟩ := ih (fun g hg => hkeeps g (List.mem_cons_of_mem h hg)) hr hd
      exact ⟨g, List.mem_cons_of_mem h hg, hfound⟩
    rw [deliver] at hd
    split at hd
    case isTrue => exact hlater r hr hd
    case isFalse =>
      cases hv : h.judge r with
      | error fault =>
        rw [hv] at hd
        exact absurd hd List.not_mem_nil
      | ok v =>
        have hkept : kept v.record := hkeeps h List.mem_cons_self r v hr hv
        rw [hv] at hd
        by_cases hpasses : v.passes
        · simp only [hpasses, if_true, List.mem_cons] at hd
          rcases hd with rfl | hd
          · exact ⟨h, List.mem_cons_self, r, v, hv, hpasses, hkept, rfl⟩
          · exact hlater v.record hkept hd
        · simp only [hpasses] at hd
          exact hlater v.record hkept hd

end Session

end TraceAudit.Log
