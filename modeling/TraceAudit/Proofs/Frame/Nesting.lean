import Mathlib.Data.List.Sort
import TraceAudit.Frame.Build

/-!
# The nesting that depths show

Depths alone decide which calls a step runs inside of: a call **encloses** a later position when
every step after the call, up to this position, runs deeper than the call. This module speaks of
positions only and does not mention the pass of `Frame/Build`.

* The calls that enclose a position form a chain: each one encloses the next (`Encloses.chain`).
  The innermost of them is the **owner** of the position.
* `opened steps n` lists the calls whose scopes are open after `n` steps, innermost first. Positions
  and depths fall strictly along this list (`opened_pairwise`), so that the calls which the step at
  `n` leaves stand at its front and those which enclose it remain behind.
* `calls steps n` lists the calls before `n`; the place of a call in this list numbers its frame.
-/

namespace TraceAudit.Nesting

/-- The depth at a position. -/
def depthAt (steps : List Step) (i : Nat) : Int :=
  (steps[i]?.map Step.depth).getD 0

/-- The call at a position, if there is one. -/
def callAt? (steps : List Step) (i : Nat) : Option CallOp :=
  steps[i]?.bind fun s => CallOp.ofName? s.op

/-- The positions of the calls before a position, in order. -/
def calls (steps : List Step) (n : Nat) : List Nat :=
  (List.range n).filter fun c => (callAt? steps c).isSome

/-- The call at `c` encloses the position `i`: every step after the call up to `i` runs deeper than
the call. -/
def Encloses (steps : List Step) (c i : Nat) : Prop :=
  (callAt? steps c).isSome ∧ c < i ∧ ∀ j ≤ i, c < j → depthAt steps c < depthAt steps j

/-- The calls whose scopes are open after `n` steps, innermost first. -/
def opened (steps : List Step) : Nat → List Nat
  | 0 => []
  | n + 1 =>
    (if (callAt? steps n).isSome then [n] else []) ++
      (opened steps n).filter fun c => depthAt steps c < depthAt steps n

/-- The calls that enclose a position, innermost first. -/
def enclosing (steps : List Step) (i : Nat) : List Nat :=
  (opened steps i).filter fun c => depthAt steps c < depthAt steps i

/-- The innermost call that encloses a position; none for a step of the transaction itself. -/
def owner (steps : List Step) (i : Nat) : Option Nat :=
  (enclosing steps i).head?

variable {steps : List Step} {c c' i j n : Nat}

theorem depthAt_of_getElem? {s : Step} (h : steps[i]? = some s) : depthAt steps i = s.depth := by
  rw [depthAt, h, Option.map_some, Option.getD_some]

theorem callAt?_of_getElem? {s : Step} (h : steps[i]? = some s) :
    callAt? steps i = CallOp.ofName? s.op := by
  rw [callAt?, h, Option.bind_some]

theorem lt_length_of_callAt? (h : (callAt? steps c).isSome) : c < steps.length := by
  by_contra hc
  rw [callAt?, List.getElem?_eq_none (Nat.le_of_not_lt hc)] at h
  exact absurd h (by simp)

/-! ### Calls in order -/

theorem mem_calls_iff : c ∈ calls steps n ↔ c < n ∧ (callAt? steps c).isSome := by
  rw [calls, List.mem_filter, List.mem_range]

theorem calls_succ (steps : List Step) (n : Nat) :
    calls steps (n + 1) = calls steps n ++ if (callAt? steps n).isSome then [n] else [] := by
  rw [calls, List.range_succ, List.filter_append, List.filter_singleton, calls]
  split <;> simp_all

/-- The calls before a later position continue the calls before an earlier one. -/
theorem calls_prefix (h : i ≤ n) : calls steps i <+: calls steps n := by
  induction n, h using Nat.le_induction with
  | base => exact List.prefix_refl _
  | succ n _ ih =>
    rw [calls_succ]
    exact ih.trans (List.prefix_append _ _)

/-- A call stands in the list of calls behind the calls before it. -/
theorem getElem?_calls (hc : (callAt? steps c).isSome) (h : c < n) :
    (calls steps n)[(calls steps c).length]? = some c := by
  have hnext : calls steps (c + 1) = calls steps c ++ [c] := by rw [calls_succ, if_pos hc]
  have hpre : calls steps c ++ [c] <+: calls steps n := hnext ▸ calls_prefix h
  rw [List.prefix_iff_eq_append.mp hpre |>.symm, List.append_assoc,
    List.getElem?_append_right (Nat.le_refl _)]
  simp

theorem calls_pairwise (steps : List Step) (n : Nat) : (calls steps n).Pairwise (· < ·) :=
  List.Pairwise.filter _ List.pairwise_lt_range

/-! ### Open scopes -/

theorem opened_succ (steps : List Step) (n : Nat) :
    opened steps (n + 1) =
      (if (callAt? steps n).isSome then [n] else []) ++ enclosing steps n := rfl

theorem mem_opened_succ_iff :
    c ∈ opened steps (n + 1) ↔
      (c = n ∧ (callAt? steps c).isSome) ∨
        (c ∈ opened steps n ∧ depthAt steps c < depthAt steps n) := by
  rw [opened_succ, List.mem_append, enclosing, List.mem_filter, decide_eq_true_eq]
  refine or_congr_left ?_
  split
  · next h => simp only [List.mem_singleton]; exact ⟨fun e => ⟨e, e ▸ h⟩, And.left⟩
  · next h => simp only [List.not_mem_nil, false_iff]; rintro ⟨rfl, hc⟩; exact h hc

/-- A scope is open as long as every step since its call ran deeper than the call. -/
theorem mem_opened_iff :
    c ∈ opened steps n ↔
      (callAt? steps c).isSome ∧ c < n ∧ ∀ j < n, c < j → depthAt steps c < depthAt steps j := by
  induction n with
  | zero => simp [opened]
  | succ n ih =>
    rw [mem_opened_succ_iff, ih]
    constructor
    · rintro (⟨rfl, hc⟩ | ⟨⟨hc, hlt, hdeep⟩, hn⟩)
      · exact ⟨hc, Nat.lt_succ_self c, fun j hj hcj => absurd hcj (by omega)⟩
      · refine ⟨hc, by omega, fun j hj hcj => ?_⟩
        rcases Nat.lt_succ_iff_lt_or_eq.mp hj with hj | rfl
        · exact hdeep j hj hcj
        · exact hn
    · rintro ⟨hc, hlt, hdeep⟩
      rcases Nat.lt_succ_iff_lt_or_eq.mp hlt with hlt | rfl
      · exact .inr ⟨⟨hc, hlt, fun j hj => hdeep j (by omega)⟩, hdeep n (by omega) hlt⟩
      · exact .inl ⟨rfl, hc⟩

theorem mem_enclosing_iff : c ∈ enclosing steps i ↔ Encloses steps c i := by
  rw [enclosing, List.mem_filter, decide_eq_true_eq, mem_opened_iff, Encloses]
  constructor
  · rintro ⟨⟨hc, hlt, hdeep⟩, hi⟩
    refine ⟨hc, hlt, fun j hj hcj => ?_⟩
    rcases Nat.lt_or_eq_of_le hj with hj | rfl
    · exact hdeep j hj hcj
    · exact hi
  · rintro ⟨hc, hlt, hdeep⟩
    exact ⟨⟨hc, hlt, fun j hj => hdeep j (by omega)⟩, hdeep i (Nat.le_refl i) hlt⟩

/-- **The invariant of the open scopes**: from the innermost outwards, the positions of the calls
and their depths fall strictly. -/
theorem opened_pairwise (steps : List Step) (n : Nat) :
    (opened steps n).Pairwise fun a b => b < a ∧ depthAt steps b < depthAt steps a := by
  induction n with
  | zero => exact List.Pairwise.nil
  | succ n ih =>
    rw [opened_succ]
    -- what stays open is less deep than the step at `n`, so a call there may stand in front
    have htail := List.Pairwise.filter (fun c => decide (depthAt steps c < depthAt steps n)) ih
    split
    · refine List.Pairwise.cons (fun b hb => ?_) htail
      obtain ⟨hb, hdeep⟩ := List.mem_filter.mp hb
      exact ⟨(mem_opened_iff.mp hb).2.1, of_decide_eq_true hdeep⟩
    · exact htail

theorem enclosing_pairwise (steps : List Step) (i : Nat) :
    (enclosing steps i).Pairwise fun a b => b < a ∧ depthAt steps b < depthAt steps a :=
  List.Pairwise.filter _ (opened_pairwise steps i)

/-! ### Enclosing calls -/

/-- A call that encloses a position encloses every position between. -/
theorem Encloses.of_le (h : Encloses steps c i) (hj : c < j) (hji : j ≤ i) : Encloses steps c j :=
  ⟨h.1, hj, fun k hk => h.2.2 k (by omega)⟩

theorem Encloses.trans (h : Encloses steps c c') (h' : Encloses steps c' i) :
    Encloses steps c i := by
  obtain ⟨hc, hcc', hdeep⟩ := h
  refine ⟨hc, hcc'.trans h'.2.1, fun j hj hcj => ?_⟩
  rcases Nat.lt_or_ge c' j with hj' | hj'
  · exact (hdeep c' (Nat.le_refl c') hcc').trans (h'.2.2 j hj hj')
  · exact hdeep j hj' hcj

/-- Of two calls that enclose a position, the earlier one encloses the later one. -/
theorem Encloses.chain (h : Encloses steps c i) (h' : Encloses steps c' i) (hlt : c < c') :
    Encloses steps c c' :=
  h.of_le hlt (Nat.le_of_lt h'.2.1)

/-! ### Owners -/

/-- The owner of a position is the latest call that encloses it. -/
theorem owner_eq_some_iff :
    owner steps i = some c ↔ Encloses steps c i ∧ ∀ c', Encloses steps c' i → c' ≤ c := by
  -- positions fall along the enclosing calls, so that the first one is the latest
  have hsorted := enclosing_pairwise steps i
  rw [owner]
  cases hl : enclosing steps i with
  | nil =>
    refine ⟨fun h => absurd h (by simp), fun ⟨h, _⟩ => ?_⟩
    rw [← mem_enclosing_iff, hl] at h
    exact absurd h List.not_mem_nil
  | cons a l =>
    rw [hl, List.pairwise_cons] at hsorted
    have hmem : ∀ c', Encloses steps c' i ↔ c' = a ∨ c' ∈ l := fun c' => by
      rw [← mem_enclosing_iff, hl, List.mem_cons]
    rw [List.head?_cons, Option.some_inj]
    constructor
    · rintro rfl
      refine ⟨(hmem a).mpr (.inl rfl), fun c' h => ?_⟩
      rcases (hmem c').mp h with rfl | h
      · exact Nat.le_refl _
      · exact Nat.le_of_lt (hsorted.1 c' h).1
    · rintro ⟨h, hlast⟩
      rcases (hmem c).mp h with rfl | h
      · rfl
      · have hlt := (hsorted.1 c h).1
        have hle := hlast a ((hmem a).mpr (.inl rfl))
        omega

theorem owner_eq_none_iff : owner steps i = none ↔ ∀ c, ¬ Encloses steps c i := by
  rw [owner, List.head?_eq_none_iff, List.eq_nil_iff_forall_not_mem]
  exact forall_congr' fun c => not_congr mem_enclosing_iff

theorem encloses_of_owner (h : owner steps i = some c) : Encloses steps c i :=
  (owner_eq_some_iff.mp h).1

theorem owner_lt (h : owner steps i = some c) : c < i :=
  (encloses_of_owner h).2.1

/-- What encloses a position is its owner and what encloses the owner. -/
theorem encloses_iff_of_owner (h : owner steps i = some c) :
    Encloses steps c' i ↔ c' = c ∨ Encloses steps c' c := by
  obtain ⟨hc, hlast⟩ := owner_eq_some_iff.mp h
  constructor
  · intro hc'
    rcases Nat.lt_or_eq_of_le (hlast c' hc') with hlt | rfl
    · exact .inr (hc'.chain hc hlt)
    · exact .inl rfl
  · rintro (rfl | hc')
    · exact hc
    · exact hc'.trans hc

theorem enclosing_of_owner (h : owner steps i = some c) :
    enclosing steps i = c :: enclosing steps c := by
  -- both lists fall, so they are equal if they have the same members
  have hsorted : ∀ k, (enclosing steps k).Pairwise (· > ·) := fun k =>
    (enclosing_pairwise steps k).imp And.left
  refine List.Pairwise.eq_of_mem_iff (hsorted i) ?_ fun {a} => ?_
  · refine List.Pairwise.cons (fun b hb => ?_) (hsorted c)
    exact (mem_enclosing_iff.mp hb).2.1
  · rw [mem_enclosing_iff, encloses_iff_of_owner h, List.mem_cons, mem_enclosing_iff]

theorem enclosing_of_owner_none (h : owner steps i = none) : enclosing steps i = [] :=
  List.head?_eq_none_iff.mp h

/-! ### Leaving -/

/-- The step at `j` leaves the scope of the call at `c`: it is the first step after the call that
does not run deeper than the call. -/
def Leaves (steps : List Step) (c j : Nat) : Prop :=
  c < j ∧ depthAt steps j ≤ depthAt steps c ∧ ∀ k < j, c < k → depthAt steps c < depthAt steps k

theorem Leaves.unique (h : Leaves steps c i) (h' : Leaves steps c j) : i = j := by
  rcases Nat.lt_trichotomy i j with hlt | heq | hlt
  · exact absurd (h'.2.2 i hlt h.1) (by have := h.2.1; omega)
  · exact heq
  · exact absurd (h.2.2 j hlt h'.1) (by have := h'.2.1; omega)

/-- The scope of a call is open until some step leaves it. -/
theorem mem_opened_or_leaves (hc : (callAt? steps c).isSome) (hlt : c < n) :
    c ∈ opened steps n ∨ ∃ j < n, Leaves steps c j := by
  induction n, hlt using Nat.le_induction with
  | base => exact .inl (mem_opened_succ_iff.mpr (.inl ⟨rfl, hc⟩))
  | succ n hn ih =>
    rcases ih with hopen | ⟨j, hj, hleaves⟩
    · rcases lt_or_ge (depthAt steps c) (depthAt steps n) with hdeep | hout
      · exact .inl (mem_opened_succ_iff.mpr (.inr ⟨hopen, hdeep⟩))
      · exact .inr ⟨n, Nat.lt_succ_self n, hn, hout, (mem_opened_iff.mp hopen).2.2⟩
    · exact .inr ⟨j, by omega, hleaves⟩

/-- A scope that some step has left is not open. -/
theorem Leaves.not_mem_opened (h : Leaves steps c j) (hj : j < n) : c ∉ opened steps n := by
  intro hopen
  have := (mem_opened_iff.mp hopen).2.2 j hj h.1
  have := h.2.1
  omega

/-- A call encloses the positions up to the step that leaves its scope. -/
theorem Leaves.encloses_iff (hc : (callAt? steps c).isSome) (h : Leaves steps c j) :
    Encloses steps c i ↔ c < i ∧ i < j := by
  constructor
  · rintro ⟨-, hlt, hdeep⟩
    refine ⟨hlt, ?_⟩
    by_contra hji
    have := hdeep j (by omega) h.1
    have := h.2.1
    omega
  · rintro ⟨hlt, hij⟩
    exact ⟨hc, hlt, fun k hk => h.2.2 k (by omega)⟩

/-- A call owns no position from the step on that leaves its scope. -/
theorem Leaves.owner_ne (hc : (callAt? steps c).isSome) (h : Leaves steps c j) (hji : j ≤ i) :
    owner steps i ≠ some c := by
  intro howner
  have := ((h.encloses_iff hc).mp (encloses_of_owner howner)).2
  omega

end TraceAudit.Nesting
