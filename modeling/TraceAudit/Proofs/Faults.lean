import Mathlib.Data.List.Forall2
import TraceAudit.Value.Display

/-!
# Computations that may fail

A computation that returned is undone by the parts that returned (`exists_of_bind_eq_ok`). One that
fails does so at its first part that fails: a list that is worked through is refused for the first
element that is (`mapM_eq_error_iff`), and if all parts come only to faults of certain kinds, so
does the whole (`FailsOnly`).
-/

namespace TraceAudit

variable {α β : Type} {kinds kinds' : Fault → Prop} {fault : Fault}

theorem exists_of_bind_eq_ok {x : Except Fault α} {f : α → Except Fault β} {b : β}
    (h : x >>= f = .ok b) : ∃ a, x = .ok a ∧ f a = .ok b := by
  cases x with
  | error fault => cases h
  | ok a => exact ⟨a, rfl, h⟩

theorem exists_of_map_eq_ok {x : Except Fault α} {f : α → β} {b : β} (h : x.map f = .ok b) :
    ∃ a, x = .ok a ∧ f a = b := by
  cases x with
  | error fault => cases h
  | ok a => exact ⟨a, rfl, Except.ok.inj h⟩

/-- A computation returns if a test of its result succeeds. -/
theorem exists_of_any_toOption {x : Except Fault α} {p : α → Bool}
    (h : x.toOption.any p) : ∃ a, x = .ok a ∧ p a := by
  cases x with
  | error fault => cases h
  | ok a => exact ⟨a, rfl, h⟩

theorem bind_eq_error_iff {x : Except Fault α} {f : α → Except Fault β} :
    x >>= f = .error fault ↔ x = .error fault ∨ ∃ a, x = .ok a ∧ f a = .error fault := by
  cases x with
  | error other =>
    constructor
    · intro h
      cases h
      exact .inl rfl
    · rintro (h | ⟨a, ha, -⟩)
      · cases h
        rfl
      · cases ha
  | ok a =>
    constructor
    · exact fun h => .inr ⟨a, rfl, h⟩
    · rintro (h | ⟨b, hb, h⟩)
      · cases h
      · cases hb
        exact h

/-- **A list is refused for its first element that is.** -/
theorem mapM_eq_error_iff {f : α → Except Fault β} {xs : List α} :
    xs.mapM f = .error fault ↔ ∃ (i : Nat) (x : α), xs[i]? = some x ∧ f x = .error fault ∧
      ∀ (j : Nat) y, j < i → xs[j]? = some y → ∃ b, f y = .ok b := by
  induction xs with
  | nil =>
    constructor
    · intro h
      cases h
    · rintro ⟨i, x, hx, -⟩
      cases hx
  | cons x xs ih =>
    rw [List.mapM_cons, bind_eq_error_iff]
    constructor
    · rintro (h | ⟨b, hb, h⟩)
      · exact ⟨0, x, rfl, h, fun j y hj => absurd hj (Nat.not_lt_zero j)⟩
      · -- the head is not refused, so a later element is
        rcases bind_eq_error_iff.mp h with h | ⟨rest, -, h⟩
        · obtain ⟨i, y, hy, hfault, hbefore⟩ := ih.mp h
          refine ⟨i + 1, y, hy, hfault, fun j z hj hz => ?_⟩
          cases j with
          | zero =>
            cases hz
            exact ⟨b, hb⟩
          | succ j => exact hbefore j z (Nat.lt_of_succ_lt_succ hj) hz
        · cases h
    · rintro ⟨i, y, hy, hfault, hbefore⟩
      cases i with
      | zero =>
        cases hy
        exact .inl hfault
      | succ i =>
        obtain ⟨b, hb⟩ := hbefore 0 x (Nat.succ_pos i) rfl
        refine .inr ⟨b, hb, bind_eq_error_iff.mpr (.inl (ih.mpr ⟨i, y, hy, hfault, ?_⟩))⟩
        exact fun j z hj => hbefore (j + 1) z (Nat.succ_lt_succ hj)

/-- A computation in two parts returns if both do, where the second does so whatever the first one
returns or not at all. -/
theorem exists_bind_eq_ok_iff {x : Except Fault α} {f : α → Except Fault β} {p : Prop}
    (hf : ∀ a, (∃ b, f a = .ok b) ↔ p) :
    (∃ b, x >>= f = .ok b) ↔ (∃ a, x = .ok a) ∧ p := by
  cases x with
  | error fault => exact iff_of_false (fun ⟨b, h⟩ => by cases h) fun ⟨⟨a, h⟩, _⟩ => by cases h
  | ok a => exact (hf a).trans ⟨fun hp => ⟨⟨a, rfl⟩, hp⟩, And.right⟩

/-- A list is worked through if each of its elements is. -/
theorem exists_mapM_eq_ok_iff {f : α → Except Fault β} {xs : List α} :
    (∃ ys, xs.mapM f = .ok ys) ↔ ∀ x ∈ xs, ∃ y, f x = .ok y := by
  induction xs with
  | nil => exact iff_of_true ⟨[], rfl⟩ fun x hx => absurd hx List.not_mem_nil
  | cons x xs ih =>
    rw [List.mapM_cons, List.forall_mem_cons, ← ih]
    constructor
    · rintro ⟨ys, h⟩
      obtain ⟨y, hy, h⟩ := exists_of_bind_eq_ok h
      obtain ⟨rest, hrest, -⟩ := exists_of_bind_eq_ok h
      exact ⟨⟨y, hy⟩, rest, hrest⟩
    · rintro ⟨⟨y, hy⟩, rest, hrest⟩
      exact ⟨y :: rest, by rw [hy, hrest]; rfl⟩

/-- What is made of a list is made of its elements. -/
theorem exists_of_mem_mapM {f : α → Except Fault β} {xs : List α} {ys : List β} {y : β}
    (h : xs.mapM f = .ok ys) (hy : y ∈ ys) : ∃ x ∈ xs, f x = .ok y := by
  induction xs generalizing ys with
  | nil =>
    cases h
    exact absurd hy List.not_mem_nil
  | cons x xs ih =>
    rw [List.mapM_cons] at h
    obtain ⟨first, hfirst, h⟩ := exists_of_bind_eq_ok h
    obtain ⟨rest, hrest, h⟩ := exists_of_bind_eq_ok h
    cases h
    rcases List.mem_cons.mp hy with rfl | hy
    · exact ⟨x, List.mem_cons_self, hfirst⟩
    · obtain ⟨z, hz, hfz⟩ := ih hrest hy
      exact ⟨z, List.mem_cons_of_mem x hz, hfz⟩

/-- What is made of a list is made of it element by element. -/
theorem forall₂_of_mapM {f : α → Except Fault β} {xs : List α} {ys : List β}
    (h : xs.mapM f = .ok ys) : List.Forall₂ (fun x y => f x = .ok y) xs ys := by
  induction xs generalizing ys with
  | nil =>
    cases h
    exact .nil
  | cons x xs ih =>
    rw [List.mapM_cons] at h
    obtain ⟨y, hy, h⟩ := exists_of_bind_eq_ok h
    obtain ⟨rest, hrest, h⟩ := exists_of_bind_eq_ok h
    cases h
    exact .cons hy (ih hrest)

/-- What does not return fails. -/
theorem exists_eq_error_iff {x : Except Fault α} :
    (∃ fault, x = .error fault) ↔ ¬ ∃ a, x = .ok a := by
  cases x with
  | error fault => exact iff_of_true ⟨fault, rfl⟩ fun ⟨a, ha⟩ => by cases ha
  | ok a => exact iff_of_false (fun ⟨fault, h⟩ => by cases h) fun h => h ⟨a, rfl⟩

/-- A computation that fails does so with a fault of these kinds. -/
def FailsOnly (kinds : Fault → Prop) (x : Except Fault α) : Prop :=
  ∀ fault, x = .error fault → kinds fault

namespace FailsOnly

theorem ok (a : α) : FailsOnly kinds (.ok a : Except Fault α) := by
  intro fault h
  cases h

theorem error (h : kinds fault) : FailsOnly kinds (.error fault : Except Fault α) := by
  intro other hother
  cases hother
  exact h

theorem error_bind {f : α → Except Fault β} (h : kinds fault) :
    FailsOnly kinds (.error fault >>= f) :=
  error h

theorem bind {x : Except Fault α} {f : α → Except Fault β} (hx : FailsOnly kinds x)
    (hf : ∀ a, FailsOnly kinds (f a)) : FailsOnly kinds (x >>= f) := by
  intro fault h
  rcases bind_eq_error_iff.mp h with h | ⟨a, -, h⟩
  · exact hx fault h
  · exact hf a fault h

theorem mapM {f : α → Except Fault β} {xs : List α} (hf : ∀ a ∈ xs, FailsOnly kinds (f a)) :
    FailsOnly kinds (xs.mapM f) := by
  intro fault h
  obtain ⟨i, x, hmem, hx, -⟩ := mapM_eq_error_iff.mp h
  exact hf x (List.mem_of_getElem? hmem) fault hx

theorem foldlM {f : β → α → Except Fault β} (hf : ∀ b a, FailsOnly kinds (f b a)) (xs : List α)
    (b : β) : FailsOnly kinds (xs.foldlM f b) := by
  induction xs generalizing b with
  | nil => exact ok b
  | cons x xs ih =>
    rw [List.foldlM_cons]
    exact (hf b x).bind ih

end FailsOnly

/-! ### Computations that agree -/

/-- Two computations return the same, if they return, and they come to the same fault unless it is
`excepted` that they do. -/
structure Agree (excepted : Prop) (x y : Except Fault α) : Prop where
  ok_iff : ∀ a, x = .ok a ↔ y = .ok a
  eq : ¬excepted → x = y

namespace Agree

variable {excepted : Prop}

theorem refl (x : Except Fault α) : Agree excepted x x :=
  ⟨fun _ => Iff.rfl, fun _ => rfl⟩

theorem bind {x y : Except Fault α} {f g : α → Except Fault β} (h : Agree excepted x y)
    (hfg : ∀ a, Agree excepted (f a) (g a)) : Agree excepted (x >>= f) (y >>= g) where
  ok_iff b := by
    constructor
    · intro hb
      obtain ⟨a, ha, hb⟩ := exists_of_bind_eq_ok hb
      rw [(h.ok_iff a).mp ha]
      exact ((hfg a).ok_iff b).mp hb
    · intro hb
      obtain ⟨a, ha, hb⟩ := exists_of_bind_eq_ok hb
      rw [(h.ok_iff a).mpr ha]
      exact ((hfg a).ok_iff b).mpr hb
  eq hnot := by
    rw [h.eq hnot]
    exact congrArg (y >>= ·) (funext fun a => (hfg a).eq hnot)

end Agree

/-! ### Lists that are worked through backwards -/

theorem mapM_reverse_of_ok {f : α → Except Fault β} {xs : List α} {ys : List β}
    (h : xs.mapM f = .ok ys) : xs.reverse.mapM f = .ok ys.reverse := by
  induction xs generalizing ys with
  | nil =>
    cases h
    rfl
  | cons x xs ih =>
    rw [List.mapM_cons] at h
    obtain ⟨y, hy, h⟩ := exists_of_bind_eq_ok h
    obtain ⟨rest, hrest, h⟩ := exists_of_bind_eq_ok h
    cases h
    rw [List.reverse_cons, List.reverse_cons, List.mapM_append, ih hrest, List.mapM_cons, hy]
    rfl

theorem mapM_reverse_eq_ok_iff {f : α → Except Fault β} {xs : List α} {ys : List β} :
    xs.reverse.mapM f = .ok ys ↔ List.reverse <$> xs.mapM f = .ok ys := by
  constructor
  · intro h
    have hok := mapM_reverse_of_ok h
    rw [List.reverse_reverse] at hok
    rw [hok]
    exact congrArg Except.ok ys.reverse_reverse
  · intro h
    obtain ⟨zs, hzs, rfl⟩ := exists_of_map_eq_ok h
    exact mapM_reverse_of_ok hzs

/-- **A list backwards makes the result backwards.** Where there is only one fault to come to, it
comes to the same fault. -/
theorem agree_mapM_reverse {excepted : Prop} (fault : Fault) {f : α → Except Fault β} {xs : List α}
    (hf : ¬excepted → ∀ a ∈ xs, FailsOnly (· = fault) (f a)) :
    Agree excepted (xs.reverse.mapM f) (List.reverse <$> xs.mapM f) where
  ok_iff _ := mapM_reverse_eq_ok_iff
  eq hnot := by
    cases h : xs.mapM f with
    | ok ys => exact mapM_reverse_of_ok h
    | error other =>
      obtain rfl : other = fault := FailsOnly.mapM (hf hnot) other h
      cases hreverse : xs.reverse.mapM f with
      | ok ys =>
        have hok := mapM_reverse_of_ok hreverse
        rw [List.reverse_reverse, h] at hok
        cases hok
      | error other' =>
        have hfreverse : ∀ a ∈ xs.reverse, FailsOnly (· = other) (f a) := fun a ha =>
          hf hnot a (List.mem_reverse.mp ha)
        obtain rfl : other' = other := FailsOnly.mapM hfreverse other' hreverse
        rfl

end TraceAudit
