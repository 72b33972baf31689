import Mathlib.Data.List.Sort
import TraceAudit.Proofs.Analysis
import TraceAudit.Proofs.Detector.Programs

/-!
# Walks

What detectors have in common. A walk along positions collects the steps that pass a test
(`collect_cons` is its recursion). In a trace whose steps carry their positions, a walk that stays
inside comes to no fault and is a filter of the steps there (`Context.Indexed.collect_eq`). A window
of such a trace is told by the indices of its steps (`Context.between`), whether it is walked along
or cut out of the list. Where steps are looked for behind another one, no walk is needed:
`firstWithin` is what is found.
-/

namespace TraceAudit

/-- A step of a computation that goes on with the images of what it got. -/
theorem bind_map {α β γ δ : Type} {x : Except Fault α} {f : α → β} {g : β → Except Fault δ}
    {g' : α → Except Fault γ} {k : γ → δ} (h : ∀ a, g (f a) = (g' a).map k) :
    x.map f >>= g = (x >>= g').map k := by
  cases x with
  | error fault => rfl
  | ok a => exact h a

/-! ### Walks -/

namespace Context

variable {c : Context} {keep : Int → Step → Bool} {count : Nat} {i start stop : Int}
  {is : List Int} {s : Step}

theorem collect_zero : c.collect keep 0 is = .ok [] := by
  rw [collect]

theorem collect_nil : c.collect keep count [] = .ok [] := by
  cases count with
  | zero => exact collect_zero
  | succ count => rw [collect]; exact nofun

theorem collect_cons :
    c.collect keep (count + 1) (i :: is) = (c.stepAt i).bind fun s =>
      if keep i s then (c.collect keep count is).map (s :: ·)
      else c.collect keep (count + 1) is := by
  rw [collect]
  cases c.stepAt i with
  | error fault => rfl
  | ok s =>
    refine if_congr Iff.rfl ?_ rfl
    cases c.collect keep count is <;> rfl

theorem bounds_of_mem_positions (h : i ∈ c.positions start stop) : start ≤ i ∧ i < stop := by
  obtain ⟨k, hk, rfl⟩ := List.mem_map.mp h
  have := List.mem_range.mp hk
  omega

/-- A walk no longer than the trace gets to all positions that it is given. -/
theorem mem_positions (hstart : start ≤ i) (hstop : i < stop)
    (hlength : stop - start ≤ c.steps.size) : i ∈ c.positions start stop := by
  refine List.mem_map.mpr ⟨(i - start).toNat, List.mem_range.mpr ?_, ?_⟩
  · omega
  · omega

/-- A walk that starts at the same position and may go on for longer begins like the other. -/
theorem positions_widen {stop' : Int} (hstop : stop ≤ stop') :
    c.positions start stop <+: c.positions start stop' := by
  have hcount : min (stop - start).toNat (2 * c.steps.size + 1) ≤
      min (stop' - start).toNat (2 * c.steps.size + 1) := by omega
  have htake := List.take_prefix (min (stop - start).toNat (2 * c.steps.size + 1))
    (List.range (min (stop' - start).toNat (2 * c.steps.size + 1)))
  rw [List.take_range, Nat.min_eq_left hcount] at htake
  exact htake.map _

/-! ### Walks inside of an ingested trace -/

/-- Every step of the trace carries its position. -/
def Indexed (c : Context) : Prop :=
  ∀ (i : Nat) (s : Step), c.steps[i]? = some s → s.index = i

theorem indexed_mk {steps : List Step}
    (h : ∀ (i : Nat) (s : Step), steps[i]? = some s → s.index = i)
    (callFrames : Option CallFrames) (settings : Settings) :
    (Context.mk steps.toArray callFrames settings).Indexed :=
  fun i s hs => h i s (by simpa using hs)

/-- The steps at those of the given positions that lie in the trace. -/
def stepsAt (c : Context) (is : List Int) : List Step :=
  is.filterMap c.step?

theorem step?_eq_some_iff :
    c.step? i = some s ↔ 0 ≤ i ∧ c.steps.toList[i.toNat]? = some s := by
  rw [step?, Array.getElem?_toList]
  split
  · next hi => exact (and_iff_right hi).symm
  · next hi => exact iff_of_false nofun fun h => hi h.1

theorem mem_of_step? (h : c.step? i = some s) : s ∈ c.steps.toList :=
  List.mem_of_getElem? (step?_eq_some_iff.mp h).2

theorem Indexed.index_of_step? (h : c.Indexed) (hs : c.step? i = some s) : s.index = i := by
  rw [step?] at hs
  split at hs
  case isTrue hi => rw [h i.toNat s hs, Int.toNat_of_nonneg hi]
  case isFalse => exact nomatch hs

/-- A step of the trace is found at its index. -/
theorem Indexed.index_bounds (h : c.Indexed) (hs : s ∈ c.steps.toList) :
    0 ≤ s.index ∧ s.index < c.steps.size := by
  obtain ⟨i, hi, hget⟩ := List.getElem_of_mem hs
  -- a step of the trace stands somewhere, and this is what its index tells
  rw [h i s (by rw [← hget, Array.getElem_toList, Array.getElem?_eq_getElem])]
  rw [Array.length_toList] at hi
  omega

theorem Indexed.step?_index (h : c.Indexed) (hs : s ∈ c.steps.toList) :
    c.step? s.index = some s := by
  obtain ⟨i, hi⟩ := List.mem_iff_getElem?.mp hs
  rw [Array.getElem?_toList] at hi
  rw [h i s hi, step?, if_pos (Int.natCast_nonneg i), Int.toNat_natCast, hi]

/-- The indices of the steps of an ingested trace ascend. -/
theorem Indexed.pairwise_index (h : c.Indexed) :
    c.steps.toList.Pairwise fun s t => s.index < t.index := by
  refine List.pairwise_iff_getElem.mpr fun i j hi hj hij => ?_
  have hleft := h i c.steps.toList[i] (by simp)
  have hright := h j c.steps.toList[j] (by simp)
  omega

theorem stepAt_of_step? (hi : 0 ≤ i) (hs : c.step? i = some s) : c.stepAt i = .ok s := by
  rw [stepAt, if_neg (Int.not_lt.mpr hi), hs]

theorem exists_step? (hi : 0 ≤ i) (hsize : i < c.steps.size) : ∃ s, c.step? i = some s := by
  have hlt : i.toNat < c.steps.size := by omega
  refine ⟨c.steps[i.toNat], ?_⟩
  rw [step?, if_pos hi, Array.getElem?_eq_getElem]

/-- **A walk inside of the trace comes to no fault.** It collects the first steps at its positions
that pass the test. -/
theorem Indexed.collect_eq (h : c.Indexed) (keep : Int → Step → Bool) (count : Nat)
    (his : ∀ i ∈ is, 0 ≤ i ∧ i < c.steps.size) :
    c.collect keep count is =
      .ok (((c.stepsAt is).filter fun s => keep s.index s).take count) := by
  induction is generalizing count with
  | nil => rw [collect_nil, stepsAt, List.filterMap_nil, List.filter_nil, List.take_nil]
  | cons i is ih =>
    cases count with
    | zero => rw [collect_zero, List.take_zero]
    | succ count =>
      obtain ⟨hi, hsize⟩ := his i List.mem_cons_self
      obtain ⟨s, hs⟩ := exists_step? hi hsize
      have hcons : c.stepsAt (i :: is) = s :: c.stepsAt is := List.filterMap_cons_some hs
      have hrest : ∀ j ∈ is, 0 ≤ j ∧ j < c.steps.size := fun j hj =>
        his j (List.mem_cons_of_mem i hj)
      rw [collect_cons, stepAt_of_step? hi hs, hcons, List.filter_cons, h.index_of_step? hs,
        ih count hrest, ih (count + 1) hrest]
      change (if keep i s then _ else _) = _
      split <;> rfl

/-! ### Windows of an ingested trace -/

variable {before rest : List Step}

/-- The steps with indices from `start` on and before `stop`, in the order of the trace. -/
def between (c : Context) (start stop : Int) : List Step :=
  c.steps.toList.filter fun s => start ≤ s.index ∧ s.index < stop

/-- Steps in the order of their indices are told by their members. -/
theorem Indexed.eq_between (h : c.Indexed) {steps : List Step}
    (hsorted : steps.Pairwise fun s t => s.index < t.index)
    (hmem : ∀ s, s ∈ steps ↔ s ∈ c.steps.toList ∧ start ≤ s.index ∧ s.index < stop) :
    steps = c.between start stop := by
  have : Std.Irrefl fun s t : Step => s.index < t.index := ⟨fun s => Int.lt_irrefl s.index⟩
  have : Std.Antisymm fun s t : Step => s.index < t.index :=
    ⟨fun s t hst hts => absurd hst (Int.lt_asymm hts)⟩
  refine hsorted.eq_of_mem_iff (h.pairwise_index.filter _) fun s => ?_
  rw [hmem, between, List.mem_filter, decide_eq_true_eq]

/-- A walk no longer than the trace looks at the steps of a window. -/
theorem Indexed.stepsAt_positions (h : c.Indexed) (hlength : stop - start ≤ c.steps.size) :
    c.stepsAt (c.positions start stop) = c.between start stop := by
  refine h.eq_between ?_ fun s => ?_
  · have hpositions : (c.positions start stop).Pairwise (· < ·) :=
      List.pairwise_map.mpr (List.pairwise_lt_range.imp fun hlt => by omega)
    refine List.pairwise_filterMap.mpr (hpositions.imp fun {i j} hlt s hs t ht => ?_)
    rw [h.index_of_step? hs, h.index_of_step? ht]
    exact hlt
  · rw [stepsAt, List.mem_filterMap]
    constructor
    · rintro ⟨i, hi, hs⟩
      have hbounds := bounds_of_mem_positions hi
      rw [← h.index_of_step? hs] at hbounds
      exact ⟨mem_of_step? hs, hbounds⟩
    · rintro ⟨hs, hstart, hstop⟩
      exact ⟨s.index, mem_positions hstart hstop hlength, h.step?_index hs⟩

/-- Looking at some positions only is looking at the steps that carry them. -/
theorem Indexed.stepsAt_filter (h : c.Indexed) (p : Int → Bool) :
    c.stepsAt (is.filter p) = (c.stepsAt is).filter fun s => p s.index := by
  rw [stepsAt, stepsAt, List.filterMap_filter, List.filter_filterMap]
  refine List.filterMap_congr fun i _ => ?_
  cases hs : c.step? i with
  | none => exact ite_self none
  | some s => rw [Option.filter_some, h.index_of_step? hs]

/-- A window behind which there is no trace ends with the trace. -/
theorem Indexed.between_min_size (h : c.Indexed) :
    c.between start (min stop c.steps.size) = c.between start stop := by
  refine List.filter_congr fun s hs => decide_eq_decide.mpr ?_
  have hsize := (h.index_bounds hs).2
  omega

/-- What a window of the list behind a step holds are the steps of a window. -/
theorem Indexed.take_eq_between (h : c.Indexed) (hsplit : c.steps.toList = before ++ s :: rest)
    (window : Nat) : rest.take window = c.between (s.index + 1) (s.index + 1 + window) := by
  have hget : ∀ (j : Nat) (t : Step), rest[j]? = some t ↔
      c.steps.toList[before.length + 1 + j]? = some t := by
    intro j t
    rw [hsplit, List.getElem?_append_right (by omega), Nat.add_assoc, Nat.add_sub_cancel_left,
      Nat.add_comm 1 j, List.getElem?_cons_succ]
  have hindex : ∀ (i : Nat) (t : Step), c.steps.toList[i]? = some t → t.index = i :=
    fun i t ht => h i t (by rwa [← Array.getElem?_toList])
  have hs : s.index = before.length := hindex _ _ (by rw [hsplit]; simp)
  have hsublist : (rest.take window).Sublist c.steps.toList := by
    rw [hsplit]
    exact ((List.take_sublist window rest).trans (List.sublist_cons_self s rest)).trans
      (List.sublist_append_right before _)
  refine h.eq_between (h.pairwise_index.sublist hsublist) fun t => ?_
  constructor
  · intro ht
    obtain ⟨j, hj⟩ := List.mem_iff_getElem?.mp ht
    rw [List.getElem?_take] at hj
    split at hj
    case isFalse => exact nomatch hj
    case isTrue hlt =>
      have ht' := hindex _ _ ((hget j t).mp hj)
      exact ⟨hsublist.subset ht, by omega, by omega⟩
  · rintro ⟨ht, hstart, hstop⟩
    obtain ⟨i, hi⟩ := List.mem_iff_getElem?.mp ht
    have ht' := hindex i t hi
    obtain ⟨j, rfl⟩ := Nat.exists_eq_add_of_le (by omega : before.length + 1 ≤ i)
    refine List.mem_iff_getElem?.mpr ⟨j, ?_⟩
    rw [List.getElem?_take_of_lt (by omega)]
    exact (hget j t).mpr hi

end Context

/-! ### Windows behind a step -/

/-- The first step in a window that passes a test, if the window is looked at. -/
def firstWithin (looked : Bool) (window : Nat) (rest : List Step) (test : Step → Bool) :
    Option Step :=
  if looked then (rest.take window).find? test else none

theorem mem_of_firstWithin {looked : Bool} {window : Nat} {rest : List Step} {test : Step → Bool}
    {s : Step} (h : firstWithin looked window rest test = some s) : s ∈ rest := by
  cases looked with
  | true => exact List.mem_of_mem_take (List.mem_of_find?_eq_some h)
  | false => cases h

theorem SuspectArithmetic.all_cons (window : Nat) (s : Step) (rest : List Step) :
    all window (s :: rest) =
      ((firstWithin s.isArithmetic window rest Step.isAbnormalHalt).map (mk s)).toList ++
        all window rest := by
  rw [all, haltBehind?, ← firstWithin]

theorem FlatReentrancy.first?_cons (window : Nat) (s : Step) (rest : List Step) :
    first? window (s :: rest) =
      ((firstWithin s.isExternalCall window rest (exposes s)).map (mk s)).or
        (first? window rest) := by
  rw [first?, ← firstWithin]
  cases firstWithin s.isExternalCall window rest (exposes s) with
  | none => rfl
  | some store => rfl

end TraceAudit
