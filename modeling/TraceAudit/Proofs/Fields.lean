import Mathlib.Data.List.Nodup
import TraceAudit.Value.Basic

/-!
# The names of fields

Setting a field adds its name unless it is there, and changes no other field. So fields that are set
one after the other have distinct names, and they are the given ones.
-/

namespace TraceAudit.Fields

variable {fields : Fields} {name other : String} {value : Value} {pairs : List (String × Value)}

theorem mem_names_put :
    other ∈ (fields.put name value).map Prod.fst ↔ other = name ∨ other ∈ fields.map Prod.fst := by
  induction fields with
  | nil => simp [put]
  | cons f rest ih =>
    obtain ⟨n, v⟩ := f
    rw [put]
    split
    case isTrue h =>
      subst h
      simp
    case isFalse h =>
      rw [List.map_cons, List.map_cons, List.mem_cons, List.mem_cons, ih]
      exact or_left_comm

theorem nodup_names_put (h : (fields.map Prod.fst).Nodup) (name : String)
    (value : Value) : ((fields.put name value).map Prod.fst).Nodup := by
  induction fields with
  | nil => exact List.pairwise_singleton _ name
  | cons f rest ih =>
    obtain ⟨n, v⟩ := f
    obtain ⟨hfirst, hrest⟩ := List.nodup_cons.mp h
    rw [put]
    split
    case isTrue => exact h
    case isFalse hne =>
      refine List.nodup_cons.mpr ⟨fun hmem => ?_, ih hrest⟩
      rcases mem_names_put.mp hmem with heq | hmem
      · exact hne heq
      · exact hfirst hmem

/-- Fields that are set one after the other have distinct names. -/
theorem nodup_names_ofPairs (pairs : List (String × Value)) :
    ((ofPairs pairs).map Prod.fst).Nodup := by
  have hput : ∀ fields : Fields, (fields.map Prod.fst).Nodup →
      ((pairs.foldl (fun fields p => fields.put p.1 p.2) fields).map Prod.fst).Nodup := by
    induction pairs with
    | nil => exact fun _ h => h
    | cons p pairs ih => exact fun fields h => ih _ (nodup_names_put h p.1 p.2)
  exact hput [] List.nodup_nil

/-- Fields that are set one after the other have the given names. -/
theorem mem_names_ofPairs : name ∈ (ofPairs pairs).map Prod.fst ↔ name ∈ pairs.map Prod.fst := by
  have hput : ∀ fields : Fields,
      name ∈ (pairs.foldl (fun fields p => fields.put p.1 p.2) fields).map Prod.fst ↔
        name ∈ fields.map Prod.fst ∨ name ∈ pairs.map Prod.fst := by
    induction pairs with
    | nil => simp
    | cons p pairs ih =>
      intro fields
      rw [List.foldl_cons, ih, mem_names_put, List.map_cons, List.mem_cons, or_assoc, or_left_comm]
  rw [ofPairs, hput, List.map_nil]
  exact or_iff_right List.not_mem_nil

/-- A field that an object lacks is null. -/
theorem get_of_notMem (h : name ∉ fields.map Prod.fst) : fields.get name = .null := by
  have hnone : fields.get? name = none := by
    refine List.lookup_eq_none_iff.mpr fun p hp => bne_iff_ne.mpr fun heq => h ?_
    exact List.mem_map.mpr ⟨p, hp, heq.symm⟩
  rw [get, hnone]
  rfl

theorem get_put_self (fields : Fields) (name : String) (value : Value) :
    (fields.put name value).get name = value := by
  rw [get, get?_put_self, Option.getD_some]

/-- Of two values for one field the later one counts. -/
theorem put_put (fields : Fields) (name : String) (first second : Value) :
    (fields.put name first).put name second = fields.put name second := by
  induction fields with
  | nil => simp [put]
  | cons f rest ih =>
    obtain ⟨n, v⟩ := f
    by_cases h : n = name
    · simp [put, h]
    · simp [put, h, ih]

theorem get_put_of_ne (h : other ≠ name) (fields : Fields) (value : Value) :
    (fields.put name value).get other = fields.get other := by
  rw [get, get?_put_of_ne h, get]

end TraceAudit.Fields
