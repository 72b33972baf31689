import TraceAudit.Proofs.Finding.Reordering

/-!
# The index of a merger

A merger looks findings up by keys that it wrote down when they were added, while the key of a
finding is read off its evidence, and merging changes evidence: one object becomes a list, and a
list without any object gains the objects of what is merged into it. The key stays all the same
(`Finding.mergeKey_absorb`), so the index never goes stale. `Merger.Indexed` says what this means
for a merger: the index is the look-up of the first listed finding whose key is, by now, the one in
question. Every session leaves a merger indexed (`keys_kept_by_merging`).
-/

namespace TraceAudit

open Merging

/-- The index of a merger agrees with the keys that its findings have by now. -/
structure Merger.Indexed (m : Merger) : Prop where
  /-- The index leads to a finding with the key. -/
  key : ∀ k t, m.target? k = some t → (m.pool[t]?).map Finding.mergeKey = some k
  /-- It leads to the first listed finding with the key, and to nothing if none is listed. -/
  first : ∀ k, m.target? k = m.order.find? fun i => (m.pool[i]?).map Finding.mergeKey = some k
  /-- What stands there is the first finding of the list with the key. -/
  listed : ∀ k t, m.target? k = some t → Finding.withKey? m.findings k = m.pool[t]?

namespace Merger

variable {m : Merger} {xs : List Addition}

/-- Absorbing leaves each finding of the pool the key with which it was added. -/
theorem Shows.map_mergeKey_pool (h : m.Shows xs) (i : Nat) :
    (m.pool[i]?).map Finding.mergeKey = keyAt xs i := by
  rw [h.pool, map_mergeKey_final]

theorem Shows.indexed (h : m.Shows xs) : m.Indexed where
  key k t ht := by
    rw [h.map_mergeKey_pool]
    exact ((h.target k t).mp ht).1
  first k := by
    simp only [h.map_mergeKey_pool, h.order]
    cases ht : m.target? k with
    | some t =>
      obtain ⟨hkey, hfirst⟩ := (h.target k t).mp ht
      exact (find?_listed hkey hfirst).symm
    | none =>
      refine (List.find?_eq_none.mpr fun i _ hi => ?_).symm
      exact h.target?_eq_none_iff.mp ht i (of_decide_eq_true hi)
  listed k t ht := h.withKey?_eq_target ht

end Merger

/-- **Merging keeps keys.** A finding that absorbs another with its key keeps the key, whatever the
evidence of both is. So after every session with a merger its index leads to the first listed
finding that has the key, as the findings are by then. -/
theorem keys_kept_by_merging :
    (∀ f g : Finding, f.mergeKey = g.mergeKey → (f.absorb g).mergeKey = f.mergeKey) ∧
    ∀ bs : List Batch, (Merger.ofBatches bs).Indexed :=
  ⟨fun _ _ h => Finding.mergeKey_absorb h.symm, fun bs => (Merger.shows_ofBatches bs).indexed⟩

/-- A finding without any object in its evidence, so that its rule stands for its place. -/
def placelessFinding : Finding where
  id := "STATIC-SLITHER-0001"
  rule := "contract:Vault"
  severity := .low
  title := "Suspicious contract"
  description := "A contract is suspicious."
  evidence := .list [.text "Vault"]

/-- A finding of the same rule that tells its place. -/
def placedFinding : Finding :=
  { placelessFinding with evidence := .object [("contract", .text "Vault")] }

/-- When the second finding is merged into the first, the place comes to be read off the evidence of
the second, and it is the place that the rule stood for. -/
theorem keys_kept_by_merging_placeless :
    placelessFinding.mergeKey = placedFinding.mergeKey ∧
      (placelessFinding.absorb placedFinding).mergeKey = placelessFinding.mergeKey ∧
      (Merger.ofBatches [⟨.tool, [placelessFinding]⟩, ⟨.tool, [placedFinding]⟩]).Indexed :=
  ⟨rfl, keys_kept_by_merging.1 _ _ rfl, keys_kept_by_merging.2 _⟩

end TraceAudit
