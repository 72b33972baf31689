import Mathlib.Algebra.BigOperators.Group.List.Basic
import Mathlib.Algebra.Order.Ring.Int
import Mathlib.Data.Finset.Card
import TraceAudit.Step.Profile

/-!
# What an opcode profile adds up to

A profile groups the steps of a trace by their mnemonics. Each mnemonic of the trace is listed once
and every step has one of them, so that the groups add up to the trace (`sum_groups`): no cost is
lost or counted twice, as long as the profile is not cut (`sum_gasCostSum_top`).
-/

namespace TraceAudit

section Groups

variable {α κ : Type} [DecidableEq κ]

theorem nodup_eraseDups [BEq α] [LawfulBEq α] (as : List α) : as.eraseDups.Nodup := by
  induction as using List.reverseRecOn with
  | nil => exact List.nodup_nil
  | append_singleton as a ih =>
    by_cases ha : a ∈ as
    · simpa [List.eraseDups_append, List.removeAll, ha] using ih
    · have hone : [a].eraseDups = [a] := rfl
      have hnew : ∀ b ∈ as, ¬ b = a := fun b hb => ne_of_mem_of_not_mem hb ha
      simpa [List.eraseDups_append, List.removeAll, ha, hone, List.nodup_append, ih] using hnew

/-- **Groups add up.** If every element has one of the keys, and no key is listed twice, the sums of
the groups add up to the sum of all elements. -/
theorem sum_groups {as : List α} {keys : List κ} (key : α → κ) (f : α → Int) (hkeys : keys.Nodup)
    (hmem : ∀ a ∈ as, key a ∈ keys) :
    (keys.map fun k => ((as.filter fun a => key a = k).map f).sum).sum = (as.map f).sum := by
  induction as with
  | nil => simp
  | cons a as ih =>
    have hgroup : ∀ k ∈ keys, (((a :: as).filter fun b => key b = k).map f).sum =
        (if k = key a then f a else 0) + ((as.filter fun b => key b = k).map f).sum := by
      intro k _
      by_cases hk : k = key a
      · simp [hk]
      · simp [hk, Ne.symm hk]
    -- the first element counts in its own group, and this group is listed once
    have hone : keys.count (key a) = 1 := List.count_eq_one_of_mem hkeys (hmem a List.mem_cons_self)
    have hown : (keys.map fun k => if k = key a then f a else 0).sum = f a := by
      rw [List.sum_map_ite_eq keys (fun _ => f a) (fun _ => 0), hone]
      simp
    rw [List.map_congr_left hgroup, List.sum_map_add, hown,
      ih fun b hb => hmem b (List.mem_cons_of_mem a hb), List.map_cons, List.sum_cons]

end Groups

namespace OpcodeProfile

variable (steps : List Step)

theorem gasCostSum_ofOp (op : String) :
    (ofOp steps op).gasCostSum = ((steps.filter fun s => s.op = op).map Step.gasCost).sum := by
  have hfilter : (steps.filter fun s => s.op == op) = steps.filter fun s => s.op = op :=
    List.filter_congr fun s _ => Bool.beq_eq_decide_eq s.op op
  rw [ofOp, hfilter, List.sum_eq_foldr, List.foldr_map]

theorem ranked_perm : (ranked steps).Perm ((steps.map Step.op).eraseDups.map (ofOp steps)) :=
  List.mergeSort_perm _ _

theorem length_ranked : (ranked steps).length = (steps.map Step.op).toFinset.card := by
  have hops : (steps.map Step.op).eraseDups.toFinset = (steps.map Step.op).toFinset :=
    Finset.ext fun op => by rw [List.mem_toFinset, List.mem_toFinset, List.mem_eraseDups]
  rw [ranked, List.length_mergeSort, List.length_map,
    ← List.toFinset_card_of_nodup (nodup_eraseDups _), hops]

theorem sum_gasCostSum_ranked :
    ((ranked steps).map gasCostSum).sum = (steps.map Step.gasCost).sum := by
  have hranked : ((ranked steps).map gasCostSum).sum =
      (((steps.map Step.op).eraseDups.map (ofOp steps)).map gasCostSum).sum :=
    ((ranked_perm steps).map gasCostSum).sum_eq
  have hops : ∀ s ∈ steps, s.op ∈ (steps.map Step.op).eraseDups := fun s hs =>
    List.mem_eraseDups.mpr (List.mem_map_of_mem hs)
  rw [hranked, List.map_map, ← sum_groups Step.op Step.gasCost (nodup_eraseDups _) hops]
  exact congrArg List.sum (List.map_congr_left fun op _ => gasCostSum_ofOp steps op)

variable {steps}

/-- A limit that leaves room for every mnemonic cuts nothing. -/
theorem top_of_card_le {limit : Int} (h : ((steps.map Step.op).toFinset.card : Int) ≤ limit) :
    top steps limit = ranked steps := by
  rw [← length_ranked] at h
  refine List.take_of_length_le ?_
  rw [kept, if_neg (by omega)]
  omega

/-- **A profile that is not cut adds up to the cost of the trace.** -/
theorem sum_gasCostSum_top {limit : Int} (h : ((steps.map Step.op).toFinset.card : Int) ≤ limit) :
    ((top steps limit).map gasCostSum).sum = (steps.map Step.gasCost).sum := by
  rw [top_of_card_le h, sum_gasCostSum_ranked]

end OpcodeProfile

end TraceAudit
