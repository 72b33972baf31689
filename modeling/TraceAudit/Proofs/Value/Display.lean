import TraceAudit.Proofs.Faults

/-!
# Values that can be written

Writing a value fails in two ways: an integer in it is too long, or it is nested too deeply
(`Value.eq_or_eq_of_fault?`). What is nested no more deeply than the limit says is never nested too
deeply (`Value.fault?_ne_tooDeep`), and a value in an object or a list is less deep than they are.
-/

namespace TraceAudit.Value

variable {kinds : Fault → Prop} {fault : Fault}

/-! ### The faults of writing -/

mutual

/-- Writing a value comes to an integer that is too long or to a value that is nested too deeply. -/
theorem eq_or_eq_of_fault? : ∀ {levels : Nat} (v : Value), v.fault? levels = some fault →
    fault = .badValue ∨ fault = .tooDeep
  | 0, _, h => by
    rw [fault?] at h
    exact .inr (Option.some.inj h).symm
  | _ + 1, int n, h => by
    rw [fault?] at h
    split at h
    · exact nomatch h
    · exact .inl (Option.some.inj h).symm
  | levels + 1, list items, h => by
    rw [fault?] at h
    exact eq_or_eq_of_itemFault? items h
  | levels + 1, object fields, h => by
    rw [fault?] at h
    exact eq_or_eq_of_fieldFault? fields h
  | _ + 1, null, h | _ + 1, bool _, h | _ + 1, float _, h | _ + 1, text _, h => nomatch h

theorem eq_or_eq_of_itemFault? : ∀ {levels : Nat} (items : List Value),
    itemFault? levels items = some fault → fault = .badValue ∨ fault = .tooDeep
  | _, [], h => nomatch h
  | _, v :: rest, h => by
    rw [itemFault?, Option.or_eq_some_iff] at h
    rcases h with h | ⟨-, h⟩
    · exact eq_or_eq_of_fault? v h
    · exact eq_or_eq_of_itemFault? rest h

theorem eq_or_eq_of_fieldFault? : ∀ {levels : Nat} (fields : Fields),
    fieldFault? levels fields = some fault → fault = .badValue ∨ fault = .tooDeep
  | _, [], h => nomatch h
  | _, (_, v) :: rest, h => by
    rw [fieldFault?, Option.or_eq_some_iff] at h
    rcases h with h | ⟨-, h⟩
    · exact eq_or_eq_of_fault? v h
    · exact eq_or_eq_of_fieldFault? rest h

end

theorem display?_of_isWritable {v : Value} (h : v.isWritable = true) :
    v.display? = .ok v.display := by
  rw [display?, Option.isNone_iff_eq_none.mp h]

theorem exists_display?_iff {v : Value} : (∃ s, v.display? = .ok s) ↔ v.isWritable = true := by
  refine ⟨fun ⟨s, hs⟩ => ?_, fun h => ⟨_, display?_of_isWritable h⟩⟩
  rw [display?] at hs
  split at hs
  · exact nomatch hs
  · next hnone => exact Option.isNone_iff_eq_none.mpr hnone

theorem eq_display_of_display? {v : Value} {s : String} (h : v.display? = .ok s) :
    v.display = s := by
  rw [display?] at h
  split at h
  · exact nomatch h
  · exact Except.ok.inj h

theorem eq_or_eq_of_display? {v : Value} (h : v.display? = .error fault) :
    fault = .badValue ∨ fault = .tooDeep := by
  rw [display?] at h
  split at h
  · next other hfault =>
    cases h
    exact eq_or_eq_of_fault? v hfault
  · exact nomatch h

/-- Where values become text, an integer or the nesting of the value is at fault if they do not. -/
theorem failsOnly_display? (hbad : kinds .badValue) (hdeep : kinds .tooDeep) (v : Value) :
    FailsOnly kinds v.display? := by
  intro fault h
  rcases eq_or_eq_of_display? h with rfl | rfl
  · exact hbad
  · exact hdeep

/-! ### Nesting -/

mutual

/-- How many values stand one within the other, the innermost one included. -/
def depth : Value → Nat
  | list items => itemDepth items + 1
  | object fields => fieldDepth fields + 1
  | _ => 1

/-- The depth of the deepest item. -/
def itemDepth : List Value → Nat
  | [] => 0
  | v :: rest => max (depth v) (itemDepth rest)

/-- The depth of the deepest field. -/
def fieldDepth : List (String × Value) → Nat
  | [] => 0
  | (_, v) :: rest => max (depth v) (fieldDepth rest)

end

theorem depth_pos (v : Value) : 0 < v.depth := by
  cases v <;> simp [depth]

theorem depth_le_of_mem {items : List Value} {v : Value} (h : v ∈ items) :
    v.depth ≤ itemDepth items := by
  induction items with
  | nil => exact nomatch h
  | cons w items ih =>
    rw [itemDepth]
    rcases List.mem_cons.mp h with rfl | h
    · exact Nat.le_max_left _ _
    · exact Nat.le_trans (ih h) (Nat.le_max_right _ _)

theorem fieldDepth_put_le (fields : Fields) (name : String) (v : Value) :
    fieldDepth (fields.put name v) ≤ max (fieldDepth fields) v.depth := by
  induction fields with
  | nil => exact Nat.le_of_eq (Nat.max_comm _ _)
  | cons f fields ih =>
    obtain ⟨other, w⟩ := f
    rw [Fields.put]
    split
    · rw [fieldDepth, fieldDepth]
      omega
    · rw [fieldDepth, fieldDepth]
      omega

/-- An object is no deeper than the fields that were set in it one after the other. -/
theorem fieldDepth_ofPairs_le (pairs : List (String × Value)) :
    fieldDepth (Fields.ofPairs pairs) ≤ fieldDepth pairs := by
  have hput : ∀ fields : Fields,
      fieldDepth (pairs.foldl (fun fields p => Fields.put fields p.1 p.2) fields) ≤
        max (fieldDepth fields) (fieldDepth pairs) := by
    induction pairs with
    | nil => exact fun fields => Nat.le_max_left _ _
    | cons p pairs ih =>
      intro fields
      have hrest := ih (fields.put p.1 p.2)
      have hfirst := fieldDepth_put_le fields p.1 p.2
      rw [List.foldl_cons, fieldDepth]
      omega
  exact Nat.le_trans (hput []) (Nat.le_of_eq (Nat.zero_max _))

theorem depth_get_le (fields : Fields) (name : String) :
    (fields.get name).depth ≤ fieldDepth fields + 1 := by
  induction fields with
  | nil => exact Nat.le_refl 1
  | cons f fields ih =>
    obtain ⟨other, w⟩ := f
    rw [Fields.get, Fields.get?, List.lookup_cons, fieldDepth]
    split
    · exact Nat.le_trans (Nat.le_max_left _ _) (Nat.le_succ _)
    · exact Nat.le_trans ih (Nat.succ_le_succ (Nat.le_max_right _ _))

mutual

/-- What is nested no more deeply than there are levels left is not nested too deeply. -/
theorem fault?_ne_tooDeep : ∀ {levels : Nat} (v : Value), v.depth ≤ levels →
    v.fault? levels ≠ some .tooDeep
  | 0, v, h => fun _ => Nat.not_succ_le_zero 0 (Nat.le_trans v.depth_pos h)
  | _ + 1, int n, _ => by
    rw [fault?]
    split <;> exact nofun
  | levels + 1, list items, h => by
    rw [fault?]
    exact itemFault?_ne_tooDeep items (Nat.le_of_succ_le_succ (by rwa [depth] at h))
  | levels + 1, object fields, h => by
    rw [fault?]
    exact fieldFault?_ne_tooDeep fields (Nat.le_of_succ_le_succ (by rwa [depth] at h))
  | _ + 1, null, _ | _ + 1, bool _, _ | _ + 1, float _, _ | _ + 1, text _, _ => nofun

theorem itemFault?_ne_tooDeep : ∀ {levels : Nat} (items : List Value), itemDepth items ≤ levels →
    itemFault? levels items ≠ some .tooDeep
  | _, [], _ => nofun
  | _, v :: rest, h => by
    rw [itemDepth, Nat.max_le] at h
    rw [itemFault?, ne_eq, Option.or_eq_some_iff, not_or, not_and]
    exact ⟨fault?_ne_tooDeep v h.1, fun _ => itemFault?_ne_tooDeep rest h.2⟩

theorem fieldFault?_ne_tooDeep : ∀ {levels : Nat} (fields : Fields), fieldDepth fields ≤ levels →
    fieldFault? levels fields ≠ some .tooDeep
  | _, [], _ => nofun
  | _, (_, v) :: rest, h => by
    rw [fieldDepth, Nat.max_le] at h
    rw [fieldFault?, ne_eq, Option.or_eq_some_iff, not_or, not_and]
    exact ⟨fault?_ne_tooDeep v h.1, fun _ => fieldFault?_ne_tooDeep rest h.2⟩

end

theorem display?_ne_tooDeep {v : Value} (h : v.depth ≤ maxDepth) :
    v.display? ≠ .error .tooDeep := by
  rw [display?]
  split
  · next fault hfault =>
    intro hdeep
    cases hdeep
    exact fault?_ne_tooDeep v h hfault
  · exact nofun

/-- What is nested too deeply is not empty. -/
theorem truthy_of_tooDeep {v : Value} (h : v.display? = .error .tooDeep) : v.truthy = true := by
  by_contra hempty
  refine display?_ne_tooDeep ?_ h
  have hone : v.depth = 1 := by
    cases v with
    | list items =>
      obtain rfl : items = [] := by simpa [truthy] using hempty
      rfl
    | object fields =>
      obtain rfl : fields = [] := by simpa [truthy] using hempty
      rfl
    | _ => rw [depth] <;> exact nofun
  rw [hone]
  decide

/-- An empty list within `n` lists, each in the next one. -/
def nested : Nat → Value
  | 0 => list []
  | n + 1 => list [nested n]

/-- What is nested as deeply as there are levels left is nested too deeply. -/
theorem fault?_nested {levels n : Nat} (h : levels ≤ n) :
    (nested n).fault? levels = some .tooDeep := by
  induction levels generalizing n with
  | zero => rw [fault?]
  | succ levels ih =>
    obtain ⟨m, rfl⟩ := Nat.exists_eq_add_of_le' h
    rw [← Nat.add_assoc, nested, fault?, itemFault?, ih (Nat.le_add_left levels m)]
    rfl

end TraceAudit.Value
