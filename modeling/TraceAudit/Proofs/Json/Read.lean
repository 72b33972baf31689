import TraceAudit.Json.Read
import TraceAudit.Proofs.Value.Display

/-!
# Refused JSON

The reader of JSON spends fuel, fails in many places and reads values within values. Whatever the
text is, it fails in three ways only: the text is no JSON, a numeral in it is too long, or lists and
objects in it are nested too deeply (`failsOnly_read`). A value that is read is nested no more
deeply than the limit says, but for what its innermost list holds (`depth_le_of_read`).
-/

namespace TraceAudit.Json

/-- The faults that a text may have as JSON: it is no JSON, one of its numerals is too long, or it
is nested too deeply. -/
def IsReadingFault (fault : Fault) : Prop :=
  fault = .unreadableJson ∨ fault = .badValue ∨ fault = .tooDeep

theorem failsOnly_readText (cs : List Char) : FailsOnly IsReadingFault (readText cs) := by
  unfold readText
  split
  · exact .ok _
  · exact .error (.inl rfl)

theorem failsOnly_readNumber (neg : Bool) (cs : List Char) :
    FailsOnly IsReadingFault (readNumber neg cs) := by
  unfold readNumber
  extract_lets whole rest
  by_cases hwhole : whole.isEmpty
  · rw [if_pos hwhole]
    exact .error (.inl rfl)
  · rw [if_neg hwhole]
    -- whatever fraction and exponent there are, only a long integer is refused
    split
    split
    · exact .ok _
    · exact .ok _
    · split
      · exact .error (.inr (.inl rfl))
      · exact .ok _

theorem failsOnly_readAtom (cs : List Char) : FailsOnly IsReadingFault (readAtom cs) := by
  unfold readAtom
  repeat' split
  all_goals first
    | exact .ok _
    | exact failsOnly_readNumber _ _

/-- With so much fuel, and however many levels are left, reading fails only as it should. -/
structure FailsAsReading (fuel : Nat) : Prop where
  value : ∀ levels cs, FailsOnly IsReadingFault (readValue fuel levels cs)
  items : ∀ levels cs, FailsOnly IsReadingFault (readItems fuel levels cs)
  members : ∀ levels cs, FailsOnly IsReadingFault (readMembers fuel levels cs)

namespace FailsAsReading

variable {fuel : Nat}

theorem readValue_succ (h : FailsAsReading fuel) (levels : Nat) (cs : List Char) :
    FailsOnly IsReadingFault (readValue (fuel + 1) levels cs) := by
  unfold readValue
  split
  · exact (failsOnly_readText _).bind fun _ => .ok _
  · split
    · exact .error (.inr (.inr rfl))
    · split
      · exact .ok _
      · exact (h.items _ _).bind fun _ => .ok _
  · split
    · exact .error (.inr (.inr rfl))
    · split
      · exact .ok _
      · exact (h.members _ _).bind fun _ => .ok _
  · exact failsOnly_readAtom _

theorem readItems_succ (h : FailsAsReading fuel) (levels : Nat) (cs : List Char) :
    FailsOnly IsReadingFault (readItems (fuel + 1) levels cs) := by
  unfold readItems
  refine (h.value levels cs).bind fun first => ?_
  dsimp only
  split
  · exact .ok _
  · exact (h.items _ _).bind fun _ => .ok _
  · exact .error (.inl rfl)

theorem readMembers_succ (h : FailsAsReading fuel) (levels : Nat) (cs : List Char) :
    FailsOnly IsReadingFault (readMembers (fuel + 1) levels cs) := by
  unfold readMembers
  split
  · refine (failsOnly_readText _).bind fun name => ?_
    dsimp only
    split
    · refine (h.value _ _).bind fun v => ?_
      split
      · exact .ok _
      · exact (h.members _ _).bind fun _ => .ok _
      · exact .error (.inl rfl)
    · exact .error (.inl rfl)
  · exact .error (.inl rfl)

end FailsAsReading

/-- Items and fields are read with less fuel than the value that they are in. -/
theorem failsAsReading (fuel : Nat) : FailsAsReading fuel := by
  induction fuel with
  | zero =>
    refine ⟨fun levels cs => ?_, fun levels cs => ?_, fun levels cs => ?_⟩
    · rw [readValue]
      exact .error (.inl rfl)
    · rw [readItems]
      exact .error (.inl rfl)
    · rw [readMembers]
      exact .error (.inl rfl)
  | succ fuel ih => exact ⟨ih.readValue_succ, ih.readItems_succ, ih.readMembers_succ⟩

/-- **A text that is refused** is no JSON, has too long a numeral or is nested too deeply. -/
theorem failsOnly_read (s : String) : FailsOnly IsReadingFault (read s) := by
  unfold read
  dsimp only
  split
  case h_1 fault h =>
    exact .error ((failsAsReading _).value _ _ fault h)
  case h_2 =>
    split
    · exact .ok _
    · exact .error (.inl rfl)

/-! ### The depth of what is read -/

theorem depth_readNumber {neg : Bool} {cs rest : List Char} {v : Value}
    (h : readNumber neg cs = .ok (v, rest)) : v.depth = 1 := by
  unfold readNumber at h
  extract_lets whole behind at h
  by_cases hwhole : whole.isEmpty
  · rw [if_pos hwhole] at h
    exact nomatch h
  · rw [if_neg hwhole] at h
    split at h
    split at h
    · cases h
      rfl
    · cases h
      rfl
    · split at h
      · exact nomatch h
      · cases h
        rfl

theorem depth_readAtom {cs rest : List Char} {v : Value} (h : readAtom cs = .ok (v, rest)) :
    v.depth = 1 := by
  unfold readAtom at h
  repeat' split at h
  all_goals first
    | exact depth_readNumber h
    | cases h
      rfl

/-- What is read with so much fuel and a number of levels left is nested no more deeply than that,
but for what the innermost list holds. -/
structure ReadsWithin (fuel : Nat) : Prop where
  value : ∀ levels cs v rest, readValue fuel levels cs = .ok (v, rest) → v.depth ≤ levels + 1
  items : ∀ levels cs items rest, readItems fuel levels cs = .ok (items, rest) →
    Value.itemDepth items ≤ levels + 1
  members : ∀ levels cs fields rest, readMembers fuel levels cs = .ok (fields, rest) →
    Value.fieldDepth fields ≤ levels + 1

namespace ReadsWithin

variable {fuel levels : Nat} {cs rest : List Char}

theorem depth_le_succ (h : ReadsWithin fuel) {v : Value}
    (hread : readValue (fuel + 1) levels cs = .ok (v, rest)) : v.depth ≤ levels + 1 := by
  unfold readValue at hread
  split at hread
  · obtain ⟨⟨s, behind⟩, -, hread⟩ := exists_of_bind_eq_ok hread
    cases hread
    exact Nat.le_add_left 1 levels
  · split at hread
    · cases hread
    · split at hread
      · cases hread
        exact Nat.le_add_left 1 _
      · obtain ⟨⟨items, behind⟩, hitems, hread⟩ := exists_of_bind_eq_ok hread
        cases hread
        exact Nat.succ_le_succ (h.items _ _ _ _ hitems)
  · split at hread
    · cases hread
    · split at hread
      · cases hread
        exact Nat.le_add_left 1 _
      · obtain ⟨⟨pairs, behind⟩, hmembers, hread⟩ := exists_of_bind_eq_ok hread
        cases hread
        exact Nat.succ_le_succ
          (Nat.le_trans (Value.fieldDepth_ofPairs_le pairs) (h.members _ _ _ _ hmembers))
  · rw [depth_readAtom hread]
    exact Nat.le_add_left 1 levels

theorem itemDepth_le_succ (h : ReadsWithin fuel) {items : List Value}
    (hread : readItems (fuel + 1) levels cs = .ok (items, rest)) :
    Value.itemDepth items ≤ levels + 1 := by
  unfold readItems at hread
  obtain ⟨⟨v, behind⟩, hfirst, hread⟩ := exists_of_bind_eq_ok hread
  have hdepth := h.value _ _ _ _ hfirst
  dsimp only at hread
  split at hread
  · cases hread
    exact Nat.max_le.mpr ⟨hdepth, Nat.zero_le _⟩
  · obtain ⟨⟨vs, behind⟩, hmore, hread⟩ := exists_of_bind_eq_ok hread
    cases hread
    exact Nat.max_le.mpr ⟨hdepth, h.items _ _ _ _ hmore⟩
  · cases hread

theorem fieldDepth_le_succ (h : ReadsWithin fuel) {fields : Fields}
    (hread : readMembers (fuel + 1) levels cs = .ok (fields, rest)) :
    Value.fieldDepth fields ≤ levels + 1 := by
  unfold readMembers at hread
  split at hread
  · obtain ⟨⟨name, behind⟩, -, hread⟩ := exists_of_bind_eq_ok hread
    dsimp only at hread
    split at hread
    · obtain ⟨⟨v, behind⟩, hfirst, hread⟩ := exists_of_bind_eq_ok hread
      have hdepth := h.value _ _ _ _ hfirst
      dsimp only at hread
      split at hread
      · cases hread
        exact Nat.max_le.mpr ⟨hdepth, Nat.zero_le _⟩
      · obtain ⟨⟨more, behind⟩, hmore, hread⟩ := exists_of_bind_eq_ok hread
        cases hread
        exact Nat.max_le.mpr ⟨hdepth, h.members _ _ _ _ hmore⟩
      · cases hread
    · cases hread
  · cases hread

end ReadsWithin

theorem readsWithin (fuel : Nat) : ReadsWithin fuel := by
  induction fuel with
  | zero =>
    refine ⟨fun levels cs v rest h => ?_, fun levels cs items rest h => ?_,
      fun levels cs fields rest h => ?_⟩
    · rw [readValue] at h
      cases h
    · rw [readItems] at h
      cases h
    · rw [readMembers] at h
      cases h
  | succ fuel ih =>
    exact ⟨fun _ _ _ _ => ih.depth_le_succ, fun _ _ _ _ => ih.itemDepth_le_succ,
      fun _ _ _ _ => ih.fieldDepth_le_succ⟩

/-- **A text that is read** holds a value that is hardly deeper than the limit. -/
theorem depth_le_of_read {s : String} {v : Value} (h : read s = .ok v) :
    v.depth ≤ Value.maxDepth + 1 := by
  unfold read at h
  dsimp only at h
  split at h
  · exact nomatch h
  · next hread =>
    split at h
    · cases h
      exact (readsWithin _).value _ _ _ _ hread
    · exact nomatch h

end TraceAudit.Json
