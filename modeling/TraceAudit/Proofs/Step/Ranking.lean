import Mathlib.Data.List.Sort
import Mathlib.Data.Prod.Lex
import Mathlib.Data.String.Basic
import TraceAudit.Proofs.Step.Profile

/-!
# The ranking of an opcode profile

A profile lists mnemonics by cost, then by count, both descending, and then by mnemonic
(`OpcodeProfile.Outranks`). No two mnemonics tie in this order, so the ranking is strict
(`pairwise_ranked`) and there is one ranking only of given entries (`eq_ranked`). Hence a profile
does not show in what order the steps came (`ranked_eq_of_perm`), and where it is cut, what is left
out stands behind all that is listed (`isTop_top`).
-/

namespace TraceAudit.OpcodeProfile

variable {p q : OpcodeProfile} {steps steps' : List Step}

/-! ### The order of ranking -/

/-- A profile stands before another: it has the higher cost, or else the higher count, or else the
lesser mnemonic. -/
def Outranks (p q : OpcodeProfile) : Prop :=
  q.gasCostSum < p.gasCostSum ∨ p.gasCostSum = q.gasCostSum ∧
    (q.count < p.count ∨ p.count = q.count ∧ p.op < q.op)

instance : DecidableRel Outranks := fun p q =>
  inferInstanceAs (Decidable (q.gasCostSum < p.gasCostSum ∨ p.gasCostSum = q.gasCostSum ∧
    (q.count < p.count ∨ p.count = q.count ∧ p.op < q.op)))

/-- What profiles are ranked by. -/
def rankKey (p : OpcodeProfile) : Int ×ₗ Int ×ₗ String :=
  toLex (-p.gasCostSum, toLex (-(p.count : Int), p.op))

theorem outranks_iff : p.Outranks q ↔ p.rankKey < q.rankKey := by
  simp only [Outranks, rankKey, Prod.Lex.toLex_lt_toLex, neg_lt_neg_iff, neg_inj, Int.ofNat_lt,
    Int.ofNat_inj]

theorem precedes_iff : p.precedes q = true ↔ p.rankKey ≤ q.rankKey := by
  simp only [rankKey, Prod.Lex.toLex_le_toLex, neg_lt_neg_iff, neg_inj, Int.ofNat_lt,
    Int.ofNat_inj]
  unfold precedes
  by_cases hgas : p.gasCostSum = q.gasCostSum
  · by_cases hcount : p.count = q.count
    · simp [hgas, hcount]
    · simp [hgas, hcount]
  · simp [hgas]

instance : Std.Irrefl Outranks :=
  ⟨fun _ h => lt_irrefl _ (outranks_iff.mp h)⟩

instance : Std.Antisymm Outranks :=
  ⟨fun _ _ h h' => absurd ((outranks_iff.mp h).trans (outranks_iff.mp h')) (lt_irrefl _)⟩

/-- Profiles of different mnemonics do not tie. -/
theorem outranks_of_precedes (h : p.precedes q = true) (hop : p.op ≠ q.op) : p.Outranks q := by
  refine outranks_iff.mpr (lt_of_le_of_ne (precedes_iff.mp h) fun hkey => hop ?_)
  exact congrArg (fun k => (ofLex (ofLex k).2).2) hkey

/-! ### The entries of a ranking -/

/-- A profile has the count and the cost of the steps with its mnemonic, and there are such. -/
structure Profiles (p : OpcodeProfile) (steps : List Step) : Prop where
  op : p.op ∈ steps.map Step.op
  count : p.count = (steps.map Step.op).count p.op
  gasCostSum : p.gasCostSum = ((steps.filter fun s => s.op = p.op).map Step.gasCost).sum

theorem count_ofOp (steps : List Step) (op : String) :
    (ofOp steps op).count = (steps.map Step.op).count op := by
  rw [ofOp, List.count, List.countP_map, List.countP_eq_length_filter]
  rfl

theorem profiles_iff : p.Profiles steps ↔ ∃ op ∈ steps.map Step.op, ofOp steps op = p := by
  constructor
  · intro h
    refine ⟨p.op, h.op, ?_⟩
    have hcount := h.count
    have hcost := h.gasCostSum
    rw [← count_ofOp] at hcount
    rw [← gasCostSum_ofOp] at hcost
    obtain ⟨op, count, gasCostSum⟩ := p
    obtain rfl : count = (ofOp steps op).count := hcount
    obtain rfl : gasCostSum = (ofOp steps op).gasCostSum := hcost
    rfl
  · rintro ⟨op, hop, rfl⟩
    exact ⟨hop, count_ofOp steps op, gasCostSum_ofOp steps op⟩

theorem mem_ranked_iff : p ∈ ranked steps ↔ p.Profiles steps := by
  rw [(ranked_perm steps).mem_iff, List.mem_map, profiles_iff]
  simp only [List.mem_eraseDups]

theorem nodup_op_ranked (steps : List Step) : ((ranked steps).map op).Nodup := by
  have hops : ((steps.map Step.op).eraseDups.map (ofOp steps)).map op =
      (steps.map Step.op).eraseDups := by
    rw [List.map_map]
    exact List.map_id _
  rw [((ranked_perm steps).map op).nodup_iff, hops]
  exact nodup_eraseDups _

/-- **The ranking is strict.** -/
theorem pairwise_ranked (steps : List Step) : (ranked steps).Pairwise Outranks := by
  have hsorted : (ranked steps).Pairwise fun p q => p.precedes q = true := by
    refine List.pairwise_mergeSort (fun p q r hpq hqr => ?_) (fun p q => ?_) _
    · rw [precedes_iff] at hpq hqr ⊢
      exact hpq.trans hqr
    · rw [Bool.or_eq_true, precedes_iff, precedes_iff]
      exact le_total _ _
  have hops : (ranked steps).Pairwise fun p q => p.op ≠ q.op :=
    List.pairwise_map.mp (nodup_op_ranked steps)
  exact hsorted.imp₂ (fun _ _ => outranks_of_precedes) hops

theorem Profiles.of_perm (h : steps.Perm steps') (hp : p.Profiles steps) : p.Profiles steps' where
  op := (h.map _).mem_iff.mp hp.op
  count := by rw [hp.count, (h.map _).count_eq]
  gasCostSum := by rw [hp.gasCostSum, ((h.filter _).map _).sum_eq]

/-- There is one way only to rank given entries strictly. -/
theorem eq_ranked {ps : List OpcodeProfile} (hps : ps.Pairwise Outranks)
    (hmem : ∀ p, p ∈ ps ↔ p.Profiles steps) : ps = ranked steps := by
  refine hps.eq_of_mem_iff (pairwise_ranked steps) fun p => ?_
  rw [hmem, mem_ranked_iff]

/-- **The order of the steps does not show in the ranking.** -/
theorem ranked_eq_of_perm (h : steps.Perm steps') : ranked steps = ranked steps' := by
  refine eq_ranked (pairwise_ranked steps) fun p => ?_
  rw [mem_ranked_iff]
  exact ⟨Profiles.of_perm h, Profiles.of_perm h.symm⟩

/-! ### The entries that a limit leaves -/

/-- The list holds the profiles that stand first, up to the limit. -/
structure IsTop (steps : List Step) (limit : Nat) (ps : List OpcodeProfile) : Prop where
  length : ps.length = min limit (steps.map Step.op).toFinset.card
  nodup : (ps.map op).Nodup
  profiles : ∀ p ∈ ps, p.Profiles steps
  ranked : ps.Pairwise Outranks
  /-- What is left out stands behind all that is listed. -/
  best : ∀ q : OpcodeProfile, q.Profiles steps → q ∉ ps → ∀ p ∈ ps, p.Outranks q

theorem top_eq_take (steps : List Step) (limit : Nat) :
    top steps limit = (ranked steps).take limit := by
  rw [top, kept, if_neg (by omega), Int.toNat_natCast]

theorem isTop_top (steps : List Step) (limit : Nat) : IsTop steps limit (top steps limit) := by
  rw [top_eq_take]
  refine ⟨?_, ?_, fun p hp => ?_, (pairwise_ranked steps).take, fun q hq hout p hp => ?_⟩
  · rw [List.length_take, length_ranked]
  · rw [List.map_take]
    exact (nodup_op_ranked steps).take
  · exact mem_ranked_iff.mp (List.mem_of_mem_take hp)
  · have hparts := pairwise_ranked steps
    rw [← List.take_append_drop limit (ranked steps), List.pairwise_append] at hparts
    have hq' : q ∈ (ranked steps).take limit ++ (ranked steps).drop limit := by
      rw [List.take_append_drop]
      exact mem_ranked_iff.mpr hq
    exact hparts.2.2 p hp q ((List.mem_append.mp hq').resolve_left hout)

/-- **An opcode profile is right and blind to order.** Cut at a limit it lists the mnemonics that
stand first in the order of ranking, each with its count and its cost, and it is the same whatever
the order of the steps. -/
theorem isTop_top_and_perm (steps : List Step) (limit : Nat) :
    IsTop steps limit (top steps limit) ∧
      ∀ steps' : List Step, steps'.Perm steps → top steps' limit = top steps limit := by
  refine ⟨isTop_top steps limit, fun steps' h => ?_⟩
  rw [top_eq_take, top_eq_take, ranked_eq_of_perm h]

/-- Steps of three mnemonics that tie in cost, two of them in count as well, and of two cheaper
ones. -/
def tyingSteps : List Step :=
  [("ADD", 3), ("SSTORE", 5), ("MUL", 5), ("JUMP", 2), ("ADD", 2), ("GAS", -4)].map
    fun (op, gasCost) => ⟨0, 0, op, 0, gasCost, 1, [], []⟩

theorem ranked_tyingSteps : ranked tyingSteps =
    [⟨"ADD", 2, 5⟩, ⟨"MUL", 1, 5⟩, ⟨"SSTORE", 1, 5⟩, ⟨"JUMP", 1, 2⟩, ⟨"GAS", 1, -4⟩] := by
  refine (eq_ranked (by decide) fun p => ?_).symm
  rw [← mem_ranked_iff, (ranked_perm tyingSteps).mem_iff]
  exact List.Perm.mem_iff (by decide)

/-- The same steps backwards give the same profile. -/
theorem isTop_top_and_perm_tyingSteps :
    top tyingSteps.reverse 2 = [⟨"ADD", 2, 5⟩, ⟨"MUL", 1, 5⟩] ∧
      IsTop tyingSteps 2 (top tyingSteps 2) := by
  obtain ⟨htop, hperm⟩ := isTop_top_and_perm tyingSteps 2
  refine ⟨?_, htop⟩
  refine (hperm _ (List.reverse_perm tyingSteps)).trans ?_
  rw [top_eq_take, ranked_tyingSteps]
  rfl

end TraceAudit.OpcodeProfile
