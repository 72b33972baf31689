import Mathlib.Data.List.Induction
import Mathlib.Data.List.Perm.Basic
import TraceAudit.Finding.Merge

/-!
# What becomes of a finding that absorbs others

A merger folds findings into a finding one at a time, in place. After any number of them the result
is told at once by `Finding.merged`:

* the severity is the highest of all parts (`Severity.highestOf`);
* the evidence is that of the finding and then that of the others, in order;
* the tags are those of all parts, each where it occurs first;
* the title is marked once, unless it had the mark before;
* nothing else changes.

A finding keeps its key under all of this as long as what it absorbs has this key, too
(`mergeKey_absorbAll`), although the key is read off the evidence, which grows.
-/

namespace TraceAudit

/-! ### The highest of several severities -/

namespace Severity

/-- The highest of several severities, the least severity where there is none. -/
def highestOf (vs : List Severity) : Severity :=
  vs.foldr highest low

@[simp] theorem highestOf_cons (v : Severity) (vs : List Severity) :
    highestOf (v :: vs) = highest v (highestOf vs) := rfl

@[simp] theorem highest_low (v : Severity) : highest v low = v := by
  cases v <;> rfl

theorem highest_left_comm (a b c : Severity) :
    highest a (highest b c) = highest b (highest a c) := by
  rw [← highest_assoc, highest_comm a b, highest_assoc]

/-- The order of severities does not matter to the highest of them. -/
theorem highestOf_perm {vs ws : List Severity} (h : vs.Perm ws) : highestOf vs = highestOf ws :=
  haveI : LeftCommutative highest := ⟨highest_left_comm⟩
  h.foldr_eq low

/-- The highest of several severities has no lower rank than any of them. -/
theorem rank_le_highestOf {v : Severity} {vs : List Severity} (h : v ∈ vs) :
    v.rank ≤ (highestOf vs).rank := by
  induction vs with
  | nil => exact nomatch h
  | cons w vs ih =>
    rw [highestOf_cons, rank_highest]
    rcases List.mem_cons.mp h with rfl | h
    · exact Nat.le_max_left _ _
    · exact Nat.le_trans (ih h) (Nat.le_max_right _ _)

theorem highest_eq_or (a b : Severity) : highest a b = a ∨ highest a b = b := by
  rw [highest]
  split
  · exact .inl rfl
  · exact .inr rfl

/-- The highest of several severities is one of them. -/
theorem highestOf_mem {vs : List Severity} (h : vs ≠ []) : highestOf vs ∈ vs := by
  induction vs with
  | nil => exact absurd rfl h
  | cons v vs ih =>
    by_cases hvs : vs = []
    · rw [hvs, highestOf_cons]
      exact List.mem_singleton.mpr (highest_low v)
    · rw [highestOf_cons]
      rcases highest_eq_or v (highestOf vs) with hv | hrest
      · rw [hv]; exact List.mem_cons_self
      · rw [hrest]; exact List.mem_cons_of_mem v (ih hvs)

end Severity

/-! ### Repeated tags -/

section EraseDups

variable {α : Type} [BEq α] [LawfulBEq α]

theorem removeAll_singleton_of_mem {a : α} {as : List α} (h : a ∈ as) :
    [a].removeAll as = [] := by
  simpa [List.removeAll] using h

theorem removeAll_singleton_of_not_mem {a : α} {as : List α} (h : a ∉ as) :
    [a].removeAll as = [a] := by
  simpa [List.removeAll] using h

theorem eraseDups_eraseDups (as : List α) : as.eraseDups.eraseDups = as.eraseDups := by
  induction as using List.reverseRecOn with
  | nil => rfl
  | append_singleton as a ih =>
    by_cases ha : a ∈ as
    · rw [List.eraseDups_append, removeAll_singleton_of_mem ha, List.eraseDups_nil,
        List.append_nil, ih]
    · have ha' : a ∉ as.eraseDups := fun h => ha (List.mem_eraseDups.mp h)
      have hone : [a].eraseDups = [a] := rfl
      rw [List.eraseDups_append, removeAll_singleton_of_not_mem ha, hone, List.eraseDups_append,
        ih, removeAll_singleton_of_not_mem ha', hone]

/-- Repetitions may be removed from the front part first. -/
theorem eraseDups_eraseDups_append (as bs : List α) :
    (as.eraseDups ++ bs).eraseDups = (as ++ bs).eraseDups := by
  have hremove : bs.removeAll as.eraseDups = bs.removeAll as :=
    List.filter_congr fun b _ => by simp [List.mem_eraseDups]
  rw [List.eraseDups_append, List.eraseDups_append, eraseDups_eraseDups, hremove]

end EraseDups

/-! ### Evidence -/

namespace Evidence

/-- The fields of a value that is an object. -/
def object? : Value → Option Fields
  | .object fields => some fields
  | _ => none

/-- The place of a finding is told by the first object of its evidence as a list. -/
theorem firstFields_eq (e : Evidence) : e.firstFields = (e.items.findSome? object?).getD [] := by
  cases e <;> rfl

end Evidence

namespace Finding

/-! ### Titles -/

theorem contains_mergedTitle (title : String) :
    Text.contains (mergedTitle title) mergedMark = true := by
  rw [mergedTitle]
  split
  · assumption
  · have hmark : Text.occursIn mergedMark.toList mergedMark.toList = true :=
      Text.occursIn_iff.mpr ⟨[], [], by simp⟩
    rw [Text.contains, Text.occursIn_iff]
    exact ⟨[], " ".toList ++ title.toList, by simp⟩

/-- A title is marked once. -/
theorem mergedTitle_mergedTitle (title : String) :
    mergedTitle (mergedTitle title) = mergedTitle title := by
  rw [mergedTitle, if_pos (contains_mergedTitle title)]

/-! ### Absorbing several findings -/

/-- Fold findings into this one, one after the other. -/
def absorbAll (f : Finding) (gs : List Finding) : Finding :=
  gs.foldl absorb f

/-- The finding `f` with the findings `gs` merged into it. -/
def merged (f : Finding) (gs : List Finding) : Finding :=
  { f with
    severity := Severity.highestOf ((f :: gs).map severity)
    evidence := .list ((f :: gs).flatMap fun g => g.evidence.items)
    tags := ((f :: gs).flatMap tags).eraseDups
    title := mergedTitle f.title }

theorem merged_singleton (f g : Finding) : f.merged [g] = f.absorb g := by
  simp [merged, absorb, Severity.highestOf]

/-- Merging goes on where it stopped. -/
theorem merged_absorb (f g : Finding) (gs : List Finding) :
    (f.absorb g).merged gs = f.merged (g :: gs) := by
  have htags : ((f.tags ++ g.tags).eraseDups ++ gs.flatMap tags).eraseDups =
      (f.tags ++ (g.tags ++ gs.flatMap tags)).eraseDups := by
    rw [eraseDups_eraseDups_append, List.append_assoc]
  have hitems (es : List Value) : (Evidence.list es).items = es := rfl
  simp only [merged, absorb, List.map_cons, List.flatMap_cons, Severity.highestOf_cons,
    Severity.highest_assoc, htags, hitems, List.append_assoc, mergedTitle_mergedTitle]

/-- Folding findings in one after the other is merging them at once. -/
theorem absorbAll_eq_merged {gs : List Finding} (f : Finding) (h : gs ≠ []) :
    f.absorbAll gs = f.merged gs := by
  induction gs generalizing f with
  | nil => exact absurd rfl h
  | cons g gs ih =>
    rw [absorbAll, List.foldl_cons]
    by_cases hgs : gs = []
    · rw [hgs, List.foldl_nil, merged_singleton]
    · exact (ih (f.absorb g) hgs).trans (merged_absorb f g gs)

@[simp] theorem id_absorbAll (f : Finding) (gs : List Finding) : (f.absorbAll gs).id = f.id := by
  induction gs generalizing f with
  | nil => rfl
  | cons g gs ih => exact ih (f.absorb g)

/-! ### What does not depend on the order of absorption

The severity, the set of tags and the entries of the evidence are those of all parts taken together,
whether there is anything to absorb or not. -/

theorem severity_absorbAll (f : Finding) (gs : List Finding) :
    (f.absorbAll gs).severity = Severity.highestOf ((f :: gs).map severity) := by
  by_cases h : gs = []
  · rw [h]
    exact (Severity.highest_low f.severity).symm
  · rw [absorbAll_eq_merged f h, merged]

theorem items_absorbAll (f : Finding) (gs : List Finding) :
    (f.absorbAll gs).evidence.items = (f :: gs).flatMap fun g => g.evidence.items := by
  by_cases h : gs = []
  · rw [h]
    exact (List.append_nil _).symm
  · rw [absorbAll_eq_merged f h, merged]
    rfl

theorem mem_tags_absorbAll {tag : String} (f : Finding) (gs : List Finding) :
    tag ∈ (f.absorbAll gs).tags ↔ tag ∈ (f :: gs).flatMap tags := by
  by_cases h : gs = []
  · rw [h, List.flatMap_singleton]
    rfl
  · rw [absorbAll_eq_merged f h, merged]
    exact List.mem_eraseDups

/-- Two findings agree on what the order of absorption does not affect. -/
structure Agrees (f g : Finding) : Prop where
  key : f.mergeKey = g.mergeKey
  severity : f.severity = g.severity
  tags : ∀ tag, tag ∈ f.tags ↔ tag ∈ g.tags
  evidence : f.evidence.items.Perm g.evidence.items

/-! ### Keys -/

/-- What a finding absorbs tells its place only if it has no place of its own, and then its key is
that of what it absorbs. -/
theorem mergeKey_absorb {f g : Finding} (h : g.mergeKey = f.mergeKey) :
    (f.absorb g).mergeKey = f.mergeKey := by
  obtain ⟨hrule, hplace⟩ := MergeKey.mk.inj h
  have hfields : (f.absorb g).evidence.firstFields =
      ((f.evidence.items ++ g.evidence.items).findSome? Evidence.object?).getD [] :=
    Evidence.firstFields_eq _
  rw [List.findSome?_append] at hfields
  refine congrArg (MergeKey.mk f.rule) ?_
  rw [place, hfields]
  cases hf : f.evidence.items.findSome? Evidence.object? with
  | some fields =>
    rw [place, Evidence.firstFields_eq, hf]
    rfl
  | none =>
    -- the place of this finding is its rule, so the place of the other is the rule, too
    have hown : f.place = f.rule := by
      rw [place, Evidence.firstFields_eq, hf]
      rfl
    rw [hown, place, hrule] at hplace
    rw [Option.none_or, ← Evidence.firstFields_eq, hown]
    exact hplace

theorem mergeKey_absorbAll {f : Finding} {gs : List Finding}
    (h : ∀ g ∈ gs, g.mergeKey = f.mergeKey) : (f.absorbAll gs).mergeKey = f.mergeKey := by
  induction gs generalizing f with
  | nil => rfl
  | cons g gs ih =>
    have hg : (f.absorb g).mergeKey = f.mergeKey := mergeKey_absorb (h g List.mem_cons_self)
    exact (ih fun g' hg' => (h g' (List.mem_cons_of_mem g hg')).trans hg.symm).trans hg

/-- **The order of absorption.** When the same findings with one key are merged, in whatever order
and into whichever of them, the results agree. -/
theorem agrees_absorbAll {f g : Finding} {fs gs : List Finding} (h : (f :: fs).Perm (g :: gs))
    (hkey : ∀ e ∈ f :: fs, e.mergeKey = f.mergeKey) : (f.absorbAll fs).Agrees (g.absorbAll gs) where
  key := by
    have hg : g.mergeKey = f.mergeKey := hkey g (h.mem_iff.mpr List.mem_cons_self)
    have hfs : (f.absorbAll fs).mergeKey = f.mergeKey :=
      mergeKey_absorbAll fun e he => hkey e (List.mem_cons_of_mem f he)
    have hgs : (g.absorbAll gs).mergeKey = g.mergeKey :=
      mergeKey_absorbAll fun e he =>
        (hkey e (h.mem_iff.mpr (List.mem_cons_of_mem g he))).trans hg.symm
    rw [hfs, hgs, hg]
  severity := by
    rw [severity_absorbAll, severity_absorbAll]
    exact Severity.highestOf_perm (h.map _)
  tags tag := by
    rw [mem_tags_absorbAll, mem_tags_absorbAll]
    exact (h.flatMap_right _).mem_iff
  evidence := by
    rw [items_absorbAll, items_absorbAll]
    exact h.flatMap_right _

end Finding

end TraceAudit
