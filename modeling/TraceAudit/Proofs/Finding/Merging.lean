import Mathlib.Data.Nat.Find
import TraceAudit.Proofs.Finding.Absorption

/-!
# What a merger makes of a sequence of additions

A merger keeps an index of keys and changes findings in place. What comes of a sequence of additions
has a meaning that mentions neither, told by the positions of the additions alone:

* a finding **is absorbed** if a tool raised it and an earlier finding has its key (`IsAbsorbed`);
* it is absorbed by the first finding with its key (`Absorbs`);
* listed are the findings that are not absorbed, in order.

`Merger.Shows` says that a merger is in the state that additions lead to. It holds of a new merger
and every addition keeps it (`Shows.add`), so it holds after any session (`shows_ofBatches`), and
`ofBatches_meetsReference` spells out what it means for the findings.
-/

namespace TraceAudit

/-! ### Additions -/

/-- Who raises a finding. -/
inductive Origin where
  | detector
  | tool
deriving DecidableEq, Repr

/-- A finding that is added to a merger. -/
structure Addition where
  origin : Origin
  finding : Finding

/-- Findings of one origin that are added together. -/
structure Batch where
  origin : Origin
  findings : List Finding

/-- The key of an added finding. -/
def Addition.key (a : Addition) : MergeKey :=
  a.finding.mergeKey

/-- The additions that a batch consists of. -/
def Batch.additions (b : Batch) : List Addition :=
  b.findings.map (Addition.mk b.origin)

namespace Merger

/-- Make one addition. -/
def add (m : Merger) (a : Addition) : Merger :=
  match a.origin with
  | .detector => (m.push a.finding).addDetected m.pool.length
  | .tool => (m.push a.finding).addStatic m.pool.length

/-- Add a batch. -/
def receive (m : Merger) (b : Batch) : Merger :=
  match b.origin with
  | .detector => m.insertDetected b.findings
  | .tool => m.insertStatic b.findings

/-- What a new merger becomes when batches are added. -/
def ofBatches (bs : List Batch) : Merger :=
  bs.foldl receive {}

theorem receive_eq (m : Merger) (b : Batch) : m.receive b = b.additions.foldl add m := by
  obtain ⟨origin, fs⟩ := b
  rw [Batch.additions, List.foldl_map]
  cases origin <;> rfl

theorem ofBatches_eq (bs : List Batch) :
    ofBatches bs = (bs.flatMap Batch.additions).foldl add {} := by
  rw [List.foldl_flatMap, ofBatches]
  exact congrArg (List.foldl · {} bs) (funext fun m => funext fun b => receive_eq m b)

end Merger

/-! ### What becomes of the additions -/

namespace Merging

variable {xs : List Addition} {x : Addition} {k : MergeKey} {i j t u : Nat}

/-- The key of the addition at a position. -/
def keyAt (xs : List Addition) (i : Nat) : Option MergeKey :=
  (xs[i]?).map Addition.key

/-- An earlier addition has the key of the one at position `i`. -/
def Repeats (xs : List Addition) (i : Nat) : Prop :=
  ∃ j < i, keyAt xs j = keyAt xs i

instance (xs : List Addition) : DecidablePred (Repeats xs) := fun i =>
  inferInstanceAs (Decidable (∃ j < i, keyAt xs j = keyAt xs i))

/-- The addition at position `i` is of a tool, and an earlier one has its key. -/
def IsAbsorbed (xs : List Addition) (i : Nat) : Prop :=
  (xs[i]?).map Addition.origin = some .tool ∧ Repeats xs i

instance (xs : List Addition) : DecidablePred (IsAbsorbed xs) := fun i =>
  inferInstanceAs (Decidable ((xs[i]?).map Addition.origin = some .tool ∧ Repeats xs i))

/-- The addition at position `t` is the first with the key of the one at position `i`, which is
absorbed. -/
def Absorbs (xs : List Addition) (t i : Nat) : Prop :=
  IsAbsorbed xs i ∧ keyAt xs t = keyAt xs i ∧ ¬ Repeats xs t

instance (xs : List Addition) (t : Nat) : DecidablePred (Absorbs xs t) := fun i =>
  inferInstanceAs (Decidable (IsAbsorbed xs i ∧ keyAt xs t = keyAt xs i ∧ ¬ Repeats xs t))

/-- The positions of the additions that are not absorbed. -/
def listed (xs : List Addition) : List Nat :=
  (List.range xs.length).filter fun i => ¬ IsAbsorbed xs i

/-- The positions of the additions that are absorbed. -/
def unlisted (xs : List Addition) : List Nat :=
  (List.range xs.length).filter fun i => IsAbsorbed xs i

/-- The findings that the one at position `t` absorbs, in order. -/
def absorbedInto (xs : List Addition) (t : Nat) : List Finding :=
  ((List.range xs.length).filter fun i => Absorbs xs t i).filterMap fun i =>
    (xs[i]?).map Addition.finding

/-- What the finding at a position is in the end. -/
def final (xs : List Addition) (i : Nat) : Option Finding :=
  (xs[i]?).map fun x => x.finding.absorbAll (absorbedInto xs i)

theorem final_eq_none (h : xs.length ≤ i) : final xs i = none := by
  rw [final, List.getElem?_eq_none h, Option.map_none]

/-! ### First additions with a key -/

theorem keyAt_of_getElem? (h : xs[i]? = some x) : keyAt xs i = some x.key := by
  rw [keyAt, h, Option.map_some]

theorem lt_length_of_keyAt (h : keyAt xs i = some k) : i < xs.length := by
  obtain ⟨x, hx, -⟩ := Option.map_eq_some_iff.mp h
  exact (List.getElem?_eq_some_iff.mp hx).1

/-- A key that occurs has a first addition. -/
theorem exists_first (h : keyAt xs i = some k) :
    ∃ t ≤ i, keyAt xs t = some k ∧ ¬ Repeats xs t := by
  have hex : ∃ t, keyAt xs t = some k := ⟨i, h⟩
  refine ⟨Nat.find hex, Nat.find_le h, Nat.find_spec hex, ?_⟩
  rintro ⟨j, hj, hkey⟩
  exact Nat.find_min hex hj (hkey.trans (Nat.find_spec hex))

/-- No two additions are first with the same key. -/
theorem first_unique (ht : ¬ Repeats xs t) (hu : ¬ Repeats xs u) (h : keyAt xs t = keyAt xs u) :
    t = u := by
  rcases Nat.lt_trichotomy t u with hlt | heq | hgt
  · exact absurd ⟨t, hlt, h⟩ hu
  · exact heq
  · exact absurd ⟨u, hgt, h.symm⟩ ht

/-- What absorbs an addition comes before it. -/
theorem Absorbs.lt (h : Absorbs xs t i) : t < i := by
  obtain ⟨⟨-, j, hj, hkey⟩, hkt, hfirst⟩ := h
  by_contra hle
  exact hfirst ⟨j, by omega, hkey.trans hkt.symm⟩

/-- What absorbs others is not absorbed. -/
theorem Absorbs.not_isAbsorbed (h : Absorbs xs t i) : ¬ IsAbsorbed xs t :=
  fun habsorbed => h.2.2 habsorbed.2

/-- An absorbed addition is absorbed by exactly one other. -/
theorem IsAbsorbed.exists_absorbs (h : IsAbsorbed xs i) :
    ∃ t, Absorbs xs t i ∧ ∀ u, Absorbs xs u i → u = t := by
  obtain ⟨x, hx, -⟩ := Option.map_eq_some_iff.mp h.1
  obtain ⟨t, -, hkey, hfirst⟩ := exists_first (keyAt_of_getElem? hx)
  have hkt : keyAt xs t = keyAt xs i := hkey.trans (keyAt_of_getElem? hx).symm
  exact ⟨t, ⟨h, hkt, hfirst⟩, fun u hu => first_unique hu.2.2 hfirst (hu.2.1.trans hkt.symm)⟩

/-! ### One more addition

What is said of the first positions does not change when an addition is appended. -/

section Snoc

variable (xs x)

theorem keyAt_snoc_of_lt (h : i < xs.length) : keyAt (xs ++ [x]) i = keyAt xs i := by
  rw [keyAt, List.getElem?_append_left h, keyAt]

@[simp] theorem keyAt_snoc_length : keyAt (xs ++ [x]) xs.length = some x.key := by
  rw [keyAt, List.getElem?_concat_length, Option.map_some]

theorem repeats_snoc_of_lt (h : i < xs.length) : Repeats (xs ++ [x]) i ↔ Repeats xs i := by
  refine exists_congr fun j => and_congr_right fun hj => ?_
  rw [keyAt_snoc_of_lt xs x h, keyAt_snoc_of_lt xs x (Nat.lt_trans hj h)]

theorem repeats_snoc_length :
    Repeats (xs ++ [x]) xs.length ↔ ∃ j, keyAt xs j = some x.key := by
  constructor
  · rintro ⟨j, hj, hkey⟩
    rw [keyAt_snoc_of_lt xs x hj, keyAt_snoc_length] at hkey
    exact ⟨j, hkey⟩
  · rintro ⟨j, hkey⟩
    have hj : j < xs.length := lt_length_of_keyAt hkey
    exact ⟨j, hj, by rw [keyAt_snoc_of_lt xs x hj, keyAt_snoc_length, hkey]⟩

theorem isAbsorbed_snoc_of_lt (h : i < xs.length) :
    IsAbsorbed (xs ++ [x]) i ↔ IsAbsorbed xs i := by
  rw [IsAbsorbed, List.getElem?_append_left h, repeats_snoc_of_lt xs x h, IsAbsorbed]

theorem isAbsorbed_snoc_length :
    IsAbsorbed (xs ++ [x]) xs.length ↔ x.origin = .tool ∧ ∃ j, keyAt xs j = some x.key := by
  rw [IsAbsorbed, List.getElem?_concat_length, Option.map_some, Option.some_inj,
    repeats_snoc_length]

theorem absorbs_snoc_of_lt (ht : t < xs.length) (hi : i < xs.length) :
    Absorbs (xs ++ [x]) t i ↔ Absorbs xs t i := by
  rw [Absorbs, isAbsorbed_snoc_of_lt xs x hi, keyAt_snoc_of_lt xs x ht, keyAt_snoc_of_lt xs x hi,
    repeats_snoc_of_lt xs x ht, Absorbs]

theorem absorbs_snoc_length (ht : t < xs.length) :
    Absorbs (xs ++ [x]) t xs.length ↔
      x.origin = .tool ∧ keyAt xs t = some x.key ∧ ¬ Repeats xs t := by
  rw [Absorbs, isAbsorbed_snoc_length, keyAt_snoc_of_lt xs x ht, keyAt_snoc_length,
    repeats_snoc_of_lt xs x ht]
  constructor
  · rintro ⟨⟨htool, -⟩, hfirst⟩
    exact ⟨htool, hfirst⟩
  · rintro ⟨htool, hfirst⟩
    exact ⟨⟨htool, t, hfirst.1⟩, hfirst⟩

/-- Positions with a property, after one more addition. -/
theorem filter_range_snoc (p q : Nat → Prop) [DecidablePred p] [DecidablePred q]
    (h : ∀ i < xs.length, p i ↔ q i) :
    (List.range (xs ++ [x]).length).filter (fun i => p i) =
      (List.range xs.length).filter (fun i => q i) ++ if p xs.length then [xs.length] else [] := by
  have hold : (List.range xs.length).filter (fun i => p i) =
      (List.range xs.length).filter (fun i => q i) :=
    List.filter_congr fun i hi => decide_eq_decide.mpr (h i (List.mem_range.mp hi))
  rw [List.length_append, List.length_singleton, List.range_succ, List.filter_append, hold,
    List.filter_singleton, Bool.cond_decide]

theorem listed_snoc :
    listed (xs ++ [x]) =
      listed xs ++ if IsAbsorbed (xs ++ [x]) xs.length then [] else [xs.length] := by
  rw [listed, filter_range_snoc xs x _ (fun i => ¬ IsAbsorbed xs i) fun i hi =>
    not_congr (isAbsorbed_snoc_of_lt xs x hi), ite_not, listed]

theorem unlisted_snoc :
    unlisted (xs ++ [x]) =
      unlisted xs ++ if IsAbsorbed (xs ++ [x]) xs.length then [xs.length] else [] :=
  filter_range_snoc xs x _ (IsAbsorbed xs) fun _ hi => isAbsorbed_snoc_of_lt xs x hi

theorem absorbedInto_snoc_of_lt (ht : t < xs.length) :
    absorbedInto (xs ++ [x]) t =
      absorbedInto xs t ++ if Absorbs (xs ++ [x]) t xs.length then [x.finding] else [] := by
  have hold : ∀ l : List Nat, (∀ i ∈ l, i < xs.length) →
      (l.filterMap fun i => ((xs ++ [x])[i]?).map Addition.finding) =
        l.filterMap fun i => (xs[i]?).map Addition.finding := fun l hl =>
    List.filterMap_congr fun i hi => by rw [List.getElem?_append_left (hl i hi)]
  rw [absorbedInto, filter_range_snoc xs x _ (Absorbs xs t) fun i hi =>
    absorbs_snoc_of_lt xs x ht hi, List.filterMap_append, hold]
  · refine congrArg (absorbedInto xs t ++ ·) ?_
    split
    · rw [List.filterMap_cons, List.getElem?_concat_length]
      rfl
    · rfl
  · intro i hi
    exact List.mem_range.mp (List.mem_filter.mp hi).1

/-- The last addition absorbs nothing. -/
theorem absorbedInto_snoc_length : absorbedInto (xs ++ [x]) xs.length = [] := by
  have hnone : (List.range (xs ++ [x]).length).filter
      (fun i => Absorbs (xs ++ [x]) xs.length i) = [] := by
    refine List.filter_eq_nil_iff.mpr fun i hi habsorbs => ?_
    have hlt : xs.length < i := (of_decide_eq_true habsorbs).lt
    have hle : i < xs.length + 1 := by simpa using List.mem_range.mp hi
    omega
  rw [absorbedInto, hnone, List.filterMap_nil]

theorem final_snoc_of_lt (hi : i < xs.length) :
    final (xs ++ [x]) i = (final xs i).map fun f =>
      if Absorbs (xs ++ [x]) i xs.length then f.absorb x.finding else f := by
  rw [final, List.getElem?_append_left hi, absorbedInto_snoc_of_lt xs x hi, final, Option.map_map]
  refine congrArg (Option.map · xs[i]?) (funext fun y => ?_)
  rw [Function.comp_apply]
  split
  · exact List.foldl_append
  · rw [List.append_nil]

theorem final_snoc_length : final (xs ++ [x]) xs.length = some x.finding := by
  rw [final, List.getElem?_concat_length, absorbedInto_snoc_length]
  rfl

end Snoc

end Merging

/-! ### One addition to a merger -/

namespace Merger

open Merging

variable {m : Merger} {a : Addition} {xs : List Addition} {k : MergeKey} {i t : Nat}

/-! Registering changes the index alone. -/

@[simp] theorem pool_register (m : Merger) (k : MergeKey) (i : Nat) :
    (m.register k i).pool = m.pool := by
  rw [register]; split <;> rfl

@[simp] theorem order_register (m : Merger) (k : MergeKey) (i : Nat) :
    (m.register k i).order = m.order := by
  rw [register]; split <;> rfl

@[simp] theorem merges_register (m : Merger) (k : MergeKey) (i : Nat) :
    (m.register k i).merges = m.merges := by
  rw [register]; split <;> rfl

/-- Registering gives a target to a key that has none, and to no other key. -/
theorem target?_register_iff (m : Merger) (k k' : MergeKey) (i t : Nat) :
    (m.register k i).target? k' = some t ↔
      m.target? k' = some t ∨ m.target? k = none ∧ k' = k ∧ i = t := by
  rw [register]
  cases hk : m.target? k with
  | some u => simp
  | none =>
    have hlookup : ({ m with index := (k, i) :: m.index } : Merger).target? k' =
        if k' = k then some i else m.target? k' := by
      rw [target?, List.lookup_cons]
      by_cases h : k' = k
      · simp [h]
      · have hbeq : (k' == k) = false := beq_false_of_ne h
        simp [h, hbeq, target?]
    rw [if_neg nofun, hlookup]
    by_cases h : k' = k
    · simp [h, hk]
    · simp [h]

/-- A finding of a detector, or with a new key, is registered and listed. -/
theorem add_of_fresh (h : a.origin = .tool → m.target? a.key = none) :
    m.add a = ((m.push a.finding).register a.key m.pool.length).enlist m.pool.length := by
  have hnew : (m.push a.finding).pool[m.pool.length]? = some a.finding :=
    List.getElem?_concat_length
  have htarget : (m.push a.finding).target? = m.target? := rfl
  obtain ⟨origin, f⟩ := a
  cases origin with
  | detector => simp only [add, addDetected, hnew, Addition.key]
  | tool =>
    have hnone : m.target? f.mergeKey = none := h rfl
    simp only [add, addStatic, hnew, htarget, hnone, Addition.key]

/-- A finding of a tool whose key has a target is folded into the target. -/
theorem add_of_target (htool : a.origin = .tool) (ht : m.target? a.key = some t) :
    ∃ merge, m.add a =
      { m with
        pool := (m.pool ++ [a.finding]).modify t fun f => f.absorb a.finding
        merges := m.merges ++ [merge] } := by
  have hnew : (m.push a.finding).pool[m.pool.length]? = some a.finding :=
    List.getElem?_concat_length
  have htarget : (m.push a.finding).target? = m.target? := rfl
  obtain ⟨origin, f⟩ := a
  cases htool
  have hsome : m.target? f.mergeKey = some t := ht
  simp only [add, addStatic, hnew, htarget, hsome, fold]
  exact ⟨_, rfl⟩

/-! ### The state after additions -/

/-- The merger is in the state that the additions `xs` lead to. -/
structure Shows (m : Merger) (xs : List Addition) : Prop where
  /-- Every addition has its finding in the pool. -/
  size : m.pool.length = xs.length
  /-- The findings are as absorbing the later ones has left them. -/
  pool : ∀ i, m.pool[i]? = final xs i
  order : m.order = listed xs
  /-- The index leads to the first addition with a key. -/
  target : ∀ k t, m.target? k = some t ↔ keyAt xs t = some k ∧ ¬ Repeats xs t
  merges : m.merges.length = (unlisted xs).length

theorem shows_nil : ({} : Merger).Shows [] where
  size := rfl
  pool _ := rfl
  order := rfl
  target k t := by simp [target?, keyAt]
  merges := rfl

/-- A key has no target as long as it has not been added. -/
theorem Shows.target?_eq_none_iff (h : m.Shows xs) :
    m.target? k = none ↔ ∀ j, keyAt xs j ≠ some k := by
  constructor
  · intro hnone j hj
    obtain ⟨t, -, ht⟩ := exists_first hj
    rw [(h.target k t).mpr ht] at hnone
    exact nomatch hnone
  · intro hall
    cases htarget : m.target? k with
    | none => rfl
    | some t => exact absurd ((h.target k t).mp htarget).1 (hall t)

/-- The target of a key stays when additions follow, and a new key gets the last addition. -/
theorem first_snoc_iff (xs : List Addition) (x : Addition) (k : MergeKey) (t : Nat) :
    keyAt (xs ++ [x]) t = some k ∧ ¬ Repeats (xs ++ [x]) t ↔
      (keyAt xs t = some k ∧ ¬ Repeats xs t) ∨
        (∀ j, keyAt xs j ≠ some x.key) ∧ k = x.key ∧ xs.length = t := by
  rcases Nat.lt_trichotomy t xs.length with hlt | rfl | hgt
  · -- of an earlier addition the same is said as before
    have hne : xs.length ≠ t := Nat.ne_of_gt hlt
    simp [keyAt_snoc_of_lt xs x hlt, repeats_snoc_of_lt xs x hlt, hne]
  · -- the last addition is first with its key if no other has this key
    have hout : keyAt xs xs.length ≠ some k := fun h =>
      Nat.lt_irrefl _ (lt_length_of_keyAt h)
    rw [keyAt_snoc_length, repeats_snoc_length, not_exists, Option.some_inj]
    constructor
    · rintro ⟨hkey, hnew⟩
      exact .inr ⟨hnew, hkey.symm, rfl⟩
    · rintro (⟨hkey, -⟩ | ⟨hnew, hkey, -⟩)
      · exact absurd hkey hout
      · exact ⟨hkey.symm, hnew⟩
  · -- behind the end there is nothing
    have hout : keyAt xs t ≠ some k := fun h =>
      Nat.lt_asymm hgt (lt_length_of_keyAt h)
    have hout' : keyAt (xs ++ [x]) t ≠ some k := fun h => by
      have hlt := lt_length_of_keyAt h
      rw [List.length_append, List.length_singleton] at hlt
      omega
    have hne : xs.length ≠ t := Nat.ne_of_lt hgt
    simp [hout, hout', hne]

/-- The pool with one more finding, which the one that absorbs it has absorbed. -/
theorem Shows.map_pool_concat (h : m.Shows xs) (a : Addition) (i : Nat) :
    ((m.pool ++ [a.finding])[i]?).map
        (fun f => if Absorbs (xs ++ [a]) i xs.length then f.absorb a.finding else f) =
      final (xs ++ [a]) i := by
  rcases Nat.lt_trichotomy i xs.length with hlt | rfl | hgt
  · rw [List.getElem?_append_left (h.size ▸ hlt), h.pool, final_snoc_of_lt xs a hlt]
  · -- the last finding does not absorb itself
    have hself : ¬ Absorbs (xs ++ [a]) xs.length xs.length := fun habsorbs =>
      Nat.lt_irrefl _ habsorbs.lt
    have hlast : (m.pool ++ [a.finding])[xs.length]? = some a.finding := by
      rw [← h.size, List.getElem?_concat_length]
    rw [hlast, Option.map_some, if_neg hself, final_snoc_length]
  · have hpool : (m.pool ++ [a.finding]).length ≤ i := by
      rw [List.length_append, h.size]
      exact hgt
    have hxs : (xs ++ [a]).length ≤ i := by
      rw [List.length_append]
      exact hgt
    rw [List.getElem?_eq_none hpool, final_eq_none hxs]
    rfl

/-- **One more addition.** The case of a finding that is not absorbed: nothing in the pool changes
and the finding is listed. -/
theorem Shows.add_fresh (h : m.Shows xs) (hfresh : ¬ IsAbsorbed (xs ++ [a]) xs.length) :
    (m.add a).Shows (xs ++ [a]) := by
  have hnew : a.origin = .tool → m.target? a.key = none := by
    intro htool
    rw [h.target?_eq_none_iff]
    intro j hj
    exact hfresh ((isAbsorbed_snoc_length xs a).mpr ⟨htool, j, hj⟩)
  have hpool : (m.add a).pool = m.pool ++ [a.finding] := by
    rw [add_of_fresh hnew, enlist, pool_register]
    rfl
  have horder : (m.add a).order = m.order ++ [m.pool.length] := by
    rw [add_of_fresh hnew, enlist, order_register]
    rfl
  have hmerges : (m.add a).merges = m.merges := by
    rw [add_of_fresh hnew, enlist, merges_register]
    rfl
  have htarget : ∀ k t, (m.add a).target? k = some t ↔
      m.target? k = some t ∨ m.target? a.key = none ∧ k = a.key ∧ m.pool.length = t := by
    intro k t
    rw [add_of_fresh hnew]
    exact target?_register_iff (m.push a.finding) a.key k m.pool.length t
  refine ⟨?_, fun i => ?_, ?_, fun k t => ?_, ?_⟩
  · rw [hpool, List.length_append, List.length_append, h.size]
    rfl
  · have hnot : ¬ Absorbs (xs ++ [a]) i xs.length := fun habsorbs => hfresh habsorbs.1
    rw [hpool, ← h.map_pool_concat a i]
    simp only [if_neg hnot, Option.map_id']
  · rw [horder, listed_snoc, if_neg hfresh, h.order, h.size]
  · rw [htarget, h.target, h.target?_eq_none_iff, h.size, first_snoc_iff]
  · rw [hmerges, unlisted_snoc, if_neg hfresh, List.append_nil, h.merges]

/-- The case of a finding that is absorbed: the first finding with its key changes, and what is
listed does not. -/
theorem Shows.add_absorbed (h : m.Shows xs) (habsorbed : IsAbsorbed (xs ++ [a]) xs.length) :
    (m.add a).Shows (xs ++ [a]) := by
  obtain ⟨htool, j, hj⟩ := (isAbsorbed_snoc_length xs a).mp habsorbed
  obtain ⟨t, -, hfirst⟩ := exists_first hj
  have ht : t < xs.length := lt_length_of_keyAt hfirst.1
  obtain ⟨merge, hadd⟩ := add_of_target htool ((h.target a.key t).mpr hfirst)
  have habsorbs : ∀ i, Absorbs (xs ++ [a]) i xs.length ↔ t = i := by
    intro i
    constructor
    · intro hi
      obtain ⟨-, hkey, hnot⟩ := (absorbs_snoc_length xs a hi.lt).mp hi
      exact first_unique hfirst.2 hnot (hfirst.1.trans hkey.symm)
    · rintro rfl
      exact (absorbs_snoc_length xs a ht).mpr ⟨htool, hfirst⟩
  rw [hadd]
  refine ⟨?_, fun i => ?_, ?_, fun k u => ?_, ?_⟩
  · rw [List.length_modify, List.length_append, List.length_append, h.size]
    rfl
  · rw [List.getElem?_modify, ← h.map_pool_concat a i]
    simp only [habsorbs i, Option.map_eq_map]
  · rw [listed_snoc, if_pos habsorbed, List.append_nil, h.order]
  · have hold : ¬ ((∀ j, keyAt xs j ≠ some a.key) ∧ k = a.key ∧ xs.length = u) :=
      fun hnew => hnew.1 j hj
    rw [first_snoc_iff, or_iff_left hold, ← h.target]
    rfl
  · rw [unlisted_snoc, if_pos habsorbed, List.length_append, List.length_append, h.merges]
    rfl

/-- An addition leads from the state of the additions before to the state of all. -/
theorem Shows.add (h : m.Shows xs) (a : Addition) : (m.add a).Shows (xs ++ [a]) := by
  by_cases habsorbed : IsAbsorbed (xs ++ [a]) xs.length
  · exact h.add_absorbed habsorbed
  · exact h.add_fresh habsorbed

theorem shows_foldl_add (xs : List Addition) : (xs.foldl Merger.add {}).Shows xs := by
  induction xs using List.reverseRecOn with
  | nil => exact shows_nil
  | append_singleton xs a ih =>
    rw [List.foldl_append]
    exact ih.add a

/-- A session leads to the state of its additions. -/
theorem shows_ofBatches (bs : List Batch) :
    (ofBatches bs).Shows (bs.flatMap Batch.additions) := by
  rw [ofBatches_eq]
  exact shows_foldl_add _

end Merger

end TraceAudit
