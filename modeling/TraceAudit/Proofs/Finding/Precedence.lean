import TraceAudit.Proofs.Finding.Reordering

/-!
# The findings of detectors come first

Whatever tools report, the findings of detectors are listed first and in their order. Each stands at
its place with all that it absorbs, which are findings of tools with its key
(`Finding.mergeAll_eq_append`). So the ids at these places are those that the detectors gave
(`Finding.take_map_id_mergeAll`), and a finding whose key no tool reports is listed as it was raised
(`Finding.getElem?_mergeAll_of_forall_ne`).
-/

namespace TraceAudit

variable {detected found : List Finding} {sources : List (List Finding)} {f g : Finding} {k : Nat}

/-- The elements of a list are what is found at its positions. -/
theorem filterMap_getElem?_range {α : Type} (as : List α) :
    (List.range as.length).filterMap (fun i => as[i]?) = as := by
  induction as using List.reverseRecOn with
  | nil => rfl
  | append_singleton as a ih =>
    have hinit : (List.range as.length).filterMap (fun i => (as ++ [a])[i]?) =
        (List.range as.length).filterMap fun i => as[i]? :=
      List.filterMap_congr fun i hi => List.getElem?_append_left (List.mem_range.mp hi)
    rw [List.length_append, List.length_singleton, List.range_succ, List.filterMap_append, hinit,
      ih, List.filterMap_cons, List.getElem?_concat_length]
    rfl

/-! ### What the findings of detectors absorb -/

namespace Merging

/-- What is absorbed was raised by a tool. -/
theorem mem_of_mem_absorbedInto (h : g ∈ absorbedInto (inTurn detected found) k) : g ∈ found := by
  obtain ⟨i, hi, hg⟩ := List.mem_filterMap.mp h
  obtain ⟨x, hx, rfl⟩ := Option.map_eq_some_iff.mp hg
  have habsorbs : Absorbs (inTurn detected found) k i := of_decide_eq_true (List.mem_filter.mp hi).2
  -- findings of detectors are not absorbed
  have hle : detected.length ≤ i := Nat.not_lt.mp fun hlt => not_isAbsorbed_of_lt hlt habsorbs.1
  rw [getElem?_inTurn_of_le found hle] at hx
  obtain ⟨f, hf, rfl⟩ := Option.map_eq_some_iff.mp hx
  exact List.mem_of_getElem? hf

/-- What the finding of a detector absorbs has its key. -/
theorem mergeKey_eq_of_mem_absorbedInto (hf : detected[k]? = some f)
    (h : g ∈ absorbedInto (inTurn detected found) k) : g.mergeKey = f.mergeKey := by
  have hlt : k < detected.length := (List.getElem?_eq_some_iff.mp hf).1
  have hkey := mergeKey_of_mem_absorbedInto h
  rw [keyAt, getElem?_inTurn_of_lt found hlt, hf] at hkey
  exact (Option.some.inj hkey).symm

/-- If no tool reports its key, the finding of a detector absorbs nothing. -/
theorem absorbedInto_eq_nil_of_forall_ne (hf : detected[k]? = some f)
    (h : ∀ g ∈ found, g.mergeKey ≠ f.mergeKey) : absorbedInto (inTurn detected found) k = [] := by
  refine List.eq_nil_iff_forall_not_mem.mpr fun g hg => ?_
  exact h g (mem_of_mem_absorbedInto hg) (mergeKey_eq_of_mem_absorbedInto hf hg)

/-- The findings of detectors in the end. -/
theorem filterMap_final_range (detected found : List Finding) :
    (List.range detected.length).filterMap (final (inTurn detected found)) =
      detected.mapIdx fun k f => f.absorbAll (absorbedInto (inTurn detected found) k) := by
  -- what a detector raised is found at its own position among all additions
  have hfinal : ∀ i ∈ List.range detected.length, final (inTurn detected found) i =
      (detected.mapIdx fun k f => f.absorbAll (absorbedInto (inTurn detected found) k))[i]? := by
    intro i hi
    rw [final, getElem?_inTurn_of_lt found (List.mem_range.mp hi), Option.map_map,
      List.getElem?_mapIdx]
    rfl
  rw [List.filterMap_congr hfinal, ← List.length_mapIdx, filterMap_getElem?_range]

end Merging

/-! ### Where the findings of detectors are listed -/

namespace Finding

open Merging

/-- **What detectors raise comes first**, in order, with what it absorbs. -/
theorem mergeAll_eq_append (detected : List Finding) (sources : List (List Finding)) :
    mergeAll detected sources =
      (detected.mapIdx fun k f => f.absorbAll (absorbedInto (inTurn detected sources.flatten) k)) ++
        (listedTools detected sources.flatten).filterMap
          (final (inTurn detected sources.flatten)) := by
  have hshows := Merger.shows_batches detected sources
  rw [mergeAll, ← Merger.ofBatches_batches, hshows.findings_eq_final, listed_inTurn,
    List.filterMap_append, filterMap_final_range]

theorem take_mergeAll (detected : List Finding) (sources : List (List Finding)) :
    (mergeAll detected sources).take detected.length =
      detected.mapIdx fun k f =>
        f.absorbAll (absorbedInto (inTurn detected sources.flatten) k) := by
  rw [mergeAll_eq_append, List.take_left' List.length_mapIdx]

/-- The first ids of the listed findings are those that the detectors gave. -/
theorem take_map_id_mergeAll (detected : List Finding) (sources : List (List Finding)) :
    ((mergeAll detected sources).take detected.length).map Finding.id =
      detected.map Finding.id := by
  rw [take_mergeAll]
  refine List.ext_getElem? fun k => ?_
  rw [List.getElem?_map, List.getElem?_map, List.getElem?_mapIdx, Option.map_map]
  exact congrArg (Option.map · detected[k]?) (funext fun f => id_absorbAll f _)

theorem getElem?_mergeAll (hf : detected[k]? = some f) :
    (mergeAll detected sources)[k]? =
      some (f.absorbAll (absorbedInto (inTurn detected sources.flatten) k)) := by
  have hlt : k < detected.length := (List.getElem?_eq_some_iff.mp hf).1
  rw [mergeAll_eq_append, List.getElem?_append_left (by rwa [List.length_mapIdx]),
    List.getElem?_mapIdx, hf, Option.map_some]

/-- The finding of a detector whose key no tool reports is listed as it was raised. -/
theorem getElem?_mergeAll_of_forall_ne (hf : detected[k]? = some f)
    (h : ∀ g ∈ sources.flatten, g.mergeKey ≠ f.mergeKey) :
    (mergeAll detected sources)[k]? = some f := by
  rw [getElem?_mergeAll hf, absorbedInto_eq_nil_of_forall_ne hf h]
  rfl

/-- Without tools the findings of detectors are all that is listed. -/
theorem mergeAll_nil (detected : List Finding) : mergeAll detected [] = detected := by
  have hlisted : listedTools detected ([] : List (List Finding)).flatten = [] := rfl
  refine List.ext_getElem? fun k => ?_
  cases hf : detected[k]? with
  | some f => exact getElem?_mergeAll_of_forall_ne hf nofun
  | none =>
    rw [mergeAll_eq_append, hlisted, List.filterMap_nil, List.append_nil, List.getElem?_mapIdx, hf,
      Option.map_none]

end Finding

end TraceAudit
