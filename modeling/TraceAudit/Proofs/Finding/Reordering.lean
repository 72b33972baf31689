import TraceAudit.Finding.Summary
import TraceAudit.Proofs.Finding.Reference

/-!
# The order of the findings of tools

Which finding absorbs the others with its key, and so which id, title and description are reported,
depends on the order in which tools are listened to. What does not depend on it is all that can be
counted: `SameReport` says that two lists of findings agree on their number, keys, severities and,
for each key, on the finding that absorbs the others with this key, up to the order of its tags and
evidence. Findings of detectors followed by findings of tools in any order give the same report
(`sameReport_of_shows`).

The reason is that the **group** of a key, the first finding of a detector with the key and all
findings of tools with it, has the same members in any order (`group_perm`), and what becomes of a
group does not depend on the order of its members (`Finding.agrees_absorbAll`).
-/

namespace TraceAudit

namespace Merging

variable {xs : List Addition} {x : Addition} {k : MergeKey} {f : Finding} {i t : Nat}

/-! ### The keys of the results -/

theorem mergeKey_of_mem_absorbedInto (h : f ∈ absorbedInto xs t) :
    keyAt xs t = some f.mergeKey := by
  obtain ⟨i, hi, hf⟩ := List.mem_filterMap.mp h
  obtain ⟨x, hx, rfl⟩ := Option.map_eq_some_iff.mp hf
  have habsorbs : Absorbs xs t i := of_decide_eq_true (List.mem_filter.mp hi).2
  rw [habsorbs.2.1, keyAt_of_getElem? hx, Addition.key]

/-- Absorbing others does not change a key. -/
theorem map_mergeKey_final (xs : List Addition) (i : Nat) :
    (final xs i).map Finding.mergeKey = keyAt xs i := by
  rw [final, keyAt, Option.map_map]
  cases hx : xs[i]? with
  | none => rfl
  | some x =>
    refine congrArg some (Finding.mergeKey_absorbAll fun g hg => ?_)
    have hkey := mergeKey_of_mem_absorbedInto hg
    rw [keyAt_of_getElem? hx, Option.some_inj] at hkey
    exact hkey.symm

/-- A finding that repeats a key absorbs nothing. -/
theorem absorbedInto_eq_nil (h : Repeats xs t) : absorbedInto xs t = [] := by
  have hnone : (List.range xs.length).filter (fun i => Absorbs xs t i) = [] := by
    refine List.filter_eq_nil_iff.mpr fun i _ habsorbs => ?_
    exact (of_decide_eq_true habsorbs).2.2 h
  rw [absorbedInto, hnone, List.filterMap_nil]

/-! ### Groups -/

/-- The additions with one key are the first one and others, of which it absorbs those of tools. -/
theorem filter_key_eq (hx : xs[t]? = some x) (hfirst : ¬ Repeats xs t) :
    ∃ rest, xs.filter (fun a => a.key = x.key) = x :: rest ∧
      absorbedInto xs t = (rest.filter fun a => a.origin = .tool).map Addition.finding := by
  induction xs using List.reverseRecOn with
  | nil => exact nomatch hx
  | append_singleton xs a ih =>
    have ht : t < (xs ++ [a]).length := (List.getElem?_eq_some_iff.mp hx).1
    rw [List.length_append, List.length_singleton, Nat.lt_succ_iff] at ht
    rcases Nat.lt_or_eq_of_le ht with hlt | rfl
    · -- the last addition may join the group of an earlier one
      rw [List.getElem?_append_left hlt] at hx
      rw [repeats_snoc_of_lt xs a hlt] at hfirst
      obtain ⟨rest, hfilter, habsorbed⟩ := ih hx hfirst
      have hjoins : Absorbs (xs ++ [a]) t xs.length ↔ a.origin = .tool ∧ a.key = x.key := by
        rw [absorbs_snoc_length xs a hlt, keyAt_of_getElem? hx, Option.some_inj]
        constructor
        · rintro ⟨htool, hkey, -⟩
          exact ⟨htool, hkey.symm⟩
        · rintro ⟨htool, hkey⟩
          exact ⟨htool, hkey.symm, hfirst⟩
      rw [absorbedInto_snoc_of_lt xs a hlt, List.filter_append, hfilter, habsorbed]
      by_cases hkey : a.key = x.key
      · refine ⟨rest ++ [a], by simp [hkey], ?_⟩
        by_cases htool : a.origin = .tool
        · rw [if_pos (hjoins.mpr ⟨htool, hkey⟩)]
          simp [htool]
        · rw [if_neg fun h => htool (hjoins.mp h).1]
          simp [htool]
      · refine ⟨rest, by simp [hkey], ?_⟩
        rw [if_neg fun h => hkey (hjoins.mp h).2, List.append_nil]
    · -- the last addition opens a group of its own
      rw [List.getElem?_concat_length, Option.some_inj] at hx
      subst hx
      rw [repeats_snoc_length, not_exists] at hfirst
      have hnone : xs.filter (fun b => b.key = a.key) = [] := by
        refine List.filter_eq_nil_iff.mpr fun b hb hkey => ?_
        obtain ⟨j, hj⟩ := List.mem_iff_getElem?.mp hb
        exact hfirst j ((keyAt_of_getElem? hj).trans (congrArg some (of_decide_eq_true hkey)))
      refine ⟨[], ?_, ?_⟩
      · rw [List.filter_append, hnone]
        simp
      · rw [absorbedInto_snoc_length]
        rfl

/-- Findings of detectors, followed by findings of tools. -/
def inTurn (detected found : List Finding) : List Addition :=
  detected.map (Addition.mk .detector) ++ found.map (Addition.mk .tool)

/-- What is added when findings of detectors are merged with those of tools. -/
def batches (detected : List Finding) (sources : List (List Finding)) : List Batch :=
  ⟨.detector, detected⟩ :: sources.map (Batch.mk .tool)

theorem additions_batches (detected : List Finding) (sources : List (List Finding)) :
    (batches detected sources).flatMap Batch.additions = inTurn detected sources.flatten := by
  have htools : (sources.map (Batch.mk .tool)).flatMap Batch.additions =
      sources.flatten.map (Addition.mk .tool) := by
    rw [List.flatMap_map, List.map_flatten, List.flatMap]
    rfl
  rw [batches, List.flatMap_cons, htools]
  rfl

/-- The findings with one key that become one: the first of the detectors and all of the tools. -/
def group (detected found : List Finding) (k : MergeKey) : List Finding :=
  (detected.filter fun f => f.mergeKey = k).take 1 ++ found.filter fun f => f.mergeKey = k

theorem group_perm {found found' : List Finding} (h : found.Perm found') (detected : List Finding)
    (k : MergeKey) : (group detected found k).Perm (group detected found' k) :=
  (h.filter _).append_left _

theorem mergeKey_of_mem_group {detected found : List Finding} (h : f ∈ group detected found k) :
    f.mergeKey = k := by
  rcases List.mem_append.mp h with hf | hf
  · exact of_decide_eq_true (List.mem_filter.mp (List.mem_of_mem_take hf)).2
  · exact of_decide_eq_true (List.mem_filter.mp hf).2

section InTurn

variable {detected found found' : List Finding}

theorem filter_inTurn (k : MergeKey) :
    (inTurn detected found).filter (fun a => a.key = k) =
      (detected.filter fun f => f.mergeKey = k).map (Addition.mk .detector) ++
        (found.filter fun f => f.mergeKey = k).map (Addition.mk .tool) := by
  rw [inTurn, List.filter_append, List.filter_map, List.filter_map]
  rfl

/-- The first addition with a key and what it absorbs are the group of the key. -/
theorem cons_absorbedInto_eq_group (hx : (inTurn detected found)[t]? = some x)
    (hfirst : ¬ Repeats (inTurn detected found) t) :
    x.finding :: absorbedInto (inTurn detected found) t = group detected found x.key := by
  obtain ⟨rest, hfilter, habsorbed⟩ := filter_key_eq hx hfirst
  have htools : ∀ l : List Finding,
      ((l.map (Addition.mk .tool)).filter fun a => a.origin = .tool).map Addition.finding = l := by
    intro l
    simp [List.filter_map, Function.comp_def]
  have hdetectors : ∀ l : List Finding,
      (l.map (Addition.mk .detector)).filter (fun a => a.origin = .tool) = [] := by
    intro l
    simp [List.filter_map, Function.comp_def]
  rw [filter_inTurn] at hfilter
  rw [habsorbed, group]
  -- the first addition with the key is a detector's, unless no finding of theirs has it
  cases hdetected : detected.filter fun f => f.mergeKey = x.key with
  | nil =>
    cases hfound : found.filter fun f => f.mergeKey = x.key with
    | nil =>
      rw [hdetected, hfound] at hfilter
      exact nomatch hfilter
    | cons f fs =>
      rw [hdetected, hfound] at hfilter
      obtain ⟨rfl, rfl⟩ := List.cons.inj hfilter
      rw [htools]
      rfl
  | cons d ds =>
    rw [hdetected, List.map_cons, List.cons_append] at hfilter
    obtain ⟨rfl, rfl⟩ := List.cons.inj hfilter
    rw [List.filter_append, hdetectors, List.nil_append, htools]
    rfl

/-- First additions with one key become findings that agree, in whatever order tools are listened
to. -/
theorem agrees_final {t' : Nat} {x' : Addition} (h : found.Perm found')
    (hx : (inTurn detected found)[t]? = some x) (hfirst : ¬ Repeats (inTurn detected found) t)
    (hx' : (inTurn detected found')[t']? = some x')
    (hfirst' : ¬ Repeats (inTurn detected found') t') (hkey : x.key = x'.key) :
    (x.finding.absorbAll (absorbedInto (inTurn detected found) t)).Agrees
      (x'.finding.absorbAll (absorbedInto (inTurn detected found') t')) := by
  have hgroup := cons_absorbedInto_eq_group hx hfirst
  have hgroup' := cons_absorbedInto_eq_group hx' hfirst'
  refine Finding.agrees_absorbAll ?_ fun e he => ?_
  · rw [hgroup, hgroup', hkey]
    exact group_perm h detected x'.key
  · rw [hgroup] at he
    exact mergeKey_of_mem_group he

end InTurn

/-! ### Severities

The severities of the listed findings are those of the detectors' findings, which stand at the same
positions in any order, and those of the groups that only tools have. -/

/-- The severity of a finding in the end. -/
def severityAt (xs : List Addition) (i : Nat) : Option Severity :=
  (final xs i).map Finding.severity

/-- The positions of findings of tools that are listed. -/
def listedTools (detected found : List Finding) : List Nat :=
  (List.range' detected.length found.length).filter fun i => ¬ IsAbsorbed (inTurn detected found) i

section Severities

variable {detected found found' : List Finding}

theorem length_inTurn (detected found : List Finding) :
    (inTurn detected found).length = detected.length + found.length := by
  rw [inTurn, List.length_append, List.length_map, List.length_map]

theorem getElem?_inTurn_of_lt (found : List Finding) (h : i < detected.length) :
    (inTurn detected found)[i]? = (detected[i]?).map (Addition.mk .detector) := by
  rw [inTurn, List.getElem?_append_left (by rwa [List.length_map]), List.getElem?_map]

theorem getElem?_inTurn_of_le (found : List Finding) (h : detected.length ≤ i) :
    (inTurn detected found)[i]? = (found[i - detected.length]?).map (Addition.mk .tool) := by
  rw [inTurn, List.getElem?_append_right (by rwa [List.length_map]), List.getElem?_map,
    List.length_map]

theorem not_isAbsorbed_of_lt (h : i < detected.length) :
    ¬ IsAbsorbed (inTurn detected found) i := by
  rintro ⟨htool, -⟩
  rw [getElem?_inTurn_of_lt found h, List.getElem?_eq_getElem h] at htool
  exact nomatch htool

theorem listed_inTurn (detected found : List Finding) :
    listed (inTurn detected found) =
      List.range detected.length ++ listedTools detected found := by
  have hdetected : (List.range detected.length).filter
      (fun i => ¬ IsAbsorbed (inTurn detected found) i) = List.range detected.length := by
    refine List.filter_eq_self.mpr fun i hi => decide_eq_true ?_
    exact not_isAbsorbed_of_lt (List.mem_range.mp hi)
  rw [listed, length_inTurn, List.range_eq_range', ← List.range'_append_1, List.filter_append,
    ← List.range_eq_range', hdetected, Nat.zero_add]
  rfl

/-- A listed finding of a tool is the first with its key. -/
theorem first_of_mem_listedTools (h : i ∈ listedTools detected found) :
    detected.length ≤ i ∧ i < (inTurn detected found).length ∧
      ¬ Repeats (inTurn detected found) i := by
  obtain ⟨hrange, hlisted⟩ := List.mem_filter.mp h
  obtain ⟨hle, hlt⟩ := List.mem_range'_1.mp hrange
  refine ⟨hle, by rwa [length_inTurn], fun hrepeats => of_decide_eq_true hlisted ⟨?_, hrepeats⟩⟩
  have hsome : i - detected.length < found.length := by omega
  rw [getElem?_inTurn_of_le found hle, List.getElem?_eq_getElem hsome]
  rfl

/-- The keys of the listed findings of tools are the keys that no finding of a detector has. -/
theorem mem_keys_listedTools_iff :
    k ∈ (listedTools detected found).filterMap (keyAt (inTurn detected found)) ↔
      k ∈ found.map Finding.mergeKey ∧ k ∉ detected.map Finding.mergeKey := by
  constructor
  · intro hk
    obtain ⟨i, hi, hkey⟩ := List.mem_filterMap.mp hk
    obtain ⟨hle, -, hfirst⟩ := first_of_mem_listedTools hi
    constructor
    · rw [keyAt, getElem?_inTurn_of_le found hle] at hkey
      obtain ⟨x, hx, rfl⟩ := Option.map_eq_some_iff.mp hkey
      obtain ⟨f, hf, rfl⟩ := Option.map_eq_some_iff.mp hx
      exact List.mem_map_of_mem (List.mem_of_getElem? hf)
    · -- a detector's finding with this key would be earlier
      intro hmem
      obtain ⟨d, hd, hdkey⟩ := List.mem_map.mp hmem
      obtain ⟨j, hj, rfl⟩ := List.mem_iff_getElem.mp hd
      refine hfirst ⟨j, by omega, ?_⟩
      rw [hkey, keyAt, getElem?_inTurn_of_lt found hj, List.getElem?_eq_getElem hj]
      exact congrArg some hdkey
  · rintro ⟨hfound, hnew⟩
    obtain ⟨f, hf, hfkey⟩ := List.mem_map.mp hfound
    obtain ⟨j, hj, rfl⟩ := List.mem_iff_getElem.mp hf
    have hkey : keyAt (inTurn detected found) (detected.length + j) = some k := by
      rw [keyAt, getElem?_inTurn_of_le found (Nat.le_add_right _ _), Nat.add_sub_cancel_left,
        List.getElem?_eq_getElem hj]
      exact congrArg some hfkey
    obtain ⟨t, -, ht, hfirst⟩ := exists_first hkey
    -- the first addition with the key is no detector's, as none of theirs has it
    have hle : detected.length ≤ t := by
      by_contra hlt
      rw [Nat.not_le] at hlt
      rw [keyAt, getElem?_inTurn_of_lt found hlt, List.getElem?_eq_getElem hlt] at ht
      refine hnew (List.mem_map.mpr ⟨_, List.getElem_mem hlt, ?_⟩)
      exact Option.some_inj.mp ht
    have hlt := lt_length_of_keyAt ht
    rw [length_inTurn] at hlt
    refine List.mem_filterMap.mpr ⟨t, List.mem_filter.mpr ⟨?_, ?_⟩, ht⟩
    · exact List.mem_range'_1.mpr ⟨hle, hlt⟩
    · exact decide_eq_true fun habsorbed => hfirst habsorbed.2

theorem keys_listedTools_nodup (detected found : List Finding) :
    ((listedTools detected found).filterMap (keyAt (inTurn detected found))).Nodup := by
  have hnodup : (listedTools detected found).Nodup := (List.nodup_range' ..).filter _
  rw [List.Nodup, List.pairwise_filterMap]
  refine hnodup.imp_of_mem fun {i j} hi hj hne k hk k' hk' heq => hne ?_
  subst heq
  exact first_unique (first_of_mem_listedTools hi).2.2 (first_of_mem_listedTools hj).2.2
    (hk.trans hk'.symm)

theorem keys_listedTools_perm (h : found.Perm found') (detected : List Finding) :
    ((listedTools detected found).filterMap (keyAt (inTurn detected found))).Perm
      ((listedTools detected found').filterMap (keyAt (inTurn detected found'))) := by
  refine (List.perm_ext_iff_of_nodup (keys_listedTools_nodup detected found)
    (keys_listedTools_nodup detected found')).mpr fun k => ?_
  rw [mem_keys_listedTools_iff, mem_keys_listedTools_iff, (h.map _).mem_iff]

/-- The severity of a first finding is the highest of its group. -/
theorem severityAt_eq_of_first (hlt : t < (inTurn detected found).length)
    (hfirst : ¬ Repeats (inTurn detected found) t) :
    severityAt (inTurn detected found) t =
      (keyAt (inTurn detected found) t).map fun k =>
        Severity.highestOf ((group detected found k).map Finding.severity) := by
  have hx := List.getElem?_eq_getElem hlt
  rw [severityAt, final, keyAt_of_getElem? hx, hx, Option.map_some, Option.map_some,
    Option.map_some, Finding.severity_absorbAll, cons_absorbedInto_eq_group hx hfirst]

/-- The severities of the findings of detectors are the same in any order of the tools. -/
theorem severityAt_eq_of_lt (h : found.Perm found') (hi : i < detected.length) :
    severityAt (inTurn detected found) i = severityAt (inTurn detected found') i := by
  have hkeyAt : ∀ j ≤ i,
      keyAt (inTurn detected found) j = keyAt (inTurn detected found') j := by
    intro j hj
    rw [keyAt, keyAt, getElem?_inTurn_of_lt found (by omega),
      getElem?_inTurn_of_lt found' (by omega)]
  have hrepeats : Repeats (inTurn detected found) i ↔ Repeats (inTurn detected found') i := by
    refine exists_congr fun j => and_congr_right fun hj => ?_
    rw [hkeyAt j (by omega), hkeyAt i (Nat.le_refl i)]
  have hlt : i < (inTurn detected found).length := by rw [length_inTurn]; omega
  have hlt' : i < (inTurn detected found').length := by rw [length_inTurn]; omega
  -- what repeats a key absorbs nothing, and what is first becomes the highest of its group
  by_cases hfirst : Repeats (inTurn detected found) i
  · rw [severityAt, severityAt, final, final, absorbedInto_eq_nil hfirst,
      absorbedInto_eq_nil (hrepeats.mp hfirst), getElem?_inTurn_of_lt found hi,
      getElem?_inTurn_of_lt found' hi]
  · rw [severityAt_eq_of_first hlt hfirst, severityAt_eq_of_first hlt' (mt hrepeats.mpr hfirst),
      hkeyAt i (Nat.le_refl i)]
    refine congrArg (Option.map · _) (funext fun k => ?_)
    exact Severity.highestOf_perm ((group_perm h detected k).map _)

/-- The severities of the listed findings are the same in any order of the tools, up to their
order. -/
theorem severities_perm (h : found.Perm found') (detected : List Finding) :
    ((listed (inTurn detected found)).filterMap (severityAt (inTurn detected found))).Perm
      ((listed (inTurn detected found')).filterMap (severityAt (inTurn detected found'))) := by
  have htools : ∀ fs : List Finding,
      (listedTools detected fs).filterMap (severityAt (inTurn detected fs)) =
        ((listedTools detected fs).filterMap (keyAt (inTurn detected fs))).map fun k =>
          Severity.highestOf ((group detected fs k).map Finding.severity) := by
    intro fs
    rw [List.map_filterMap]
    refine List.filterMap_congr fun i hi => ?_
    obtain ⟨-, hlt, hfirst⟩ := first_of_mem_listedTools hi
    exact severityAt_eq_of_first hlt hfirst
  have htop : (fun k => Severity.highestOf ((group detected found k).map Finding.severity)) =
      fun k => Severity.highestOf ((group detected found' k).map Finding.severity) :=
    funext fun k => Severity.highestOf_perm ((group_perm h detected k).map _)
  have hdetected : (List.range detected.length).filterMap (severityAt (inTurn detected found)) =
      (List.range detected.length).filterMap (severityAt (inTurn detected found')) :=
    List.filterMap_congr fun i hi => severityAt_eq_of_lt h (List.mem_range.mp hi)
  rw [listed_inTurn, listed_inTurn, List.filterMap_append, List.filterMap_append, htools, htools,
    hdetected, htop]
  exact ((keys_listedTools_perm h detected).map _).append_left _

end Severities

end Merging

open Merging

/-! ### Reports -/

namespace Finding

/-- Of the listed findings with a key, the one that others with this key are merged into: the
first. -/
def withKey? (fs : List Finding) (k : MergeKey) : Option Finding :=
  fs.find? fun f => f.mergeKey = k

theorem mem_of_withKey? {fs : List Finding} {k : MergeKey} {f : Finding}
    (h : withKey? fs k = some f) : f ∈ fs ∧ f.mergeKey = k := by
  rw [withKey?] at h
  have hkey := List.find?_some h
  exact ⟨List.mem_of_find?_eq_some h, of_decide_eq_true hkey⟩

end Finding

/-- Two lists of findings report the same, but for the order and for what the finding that absorbs
others keeps of its own. -/
structure SameReport (fs gs : List Finding) : Prop where
  length : fs.length = gs.length
  keys : ∀ k, k ∈ fs.map Finding.mergeKey ↔ k ∈ gs.map Finding.mergeKey
  severities : (fs.map Finding.severity).Perm (gs.map Finding.severity)
  summary : Summary.ofFindings fs = Summary.ofFindings gs
  /-- The findings that others are merged into agree. -/
  target : ∀ k f, Finding.withKey? fs k = some f → ∃ g, Finding.withKey? gs k = some g ∧ f.Agrees g

/-- A summary does not depend on the order of the severities. -/
theorem Summary.ofSeverities_perm {vs ws : List Severity} (h : vs.Perm ws) :
    ofSeverities vs = ofSeverities ws := by
  rw [ofSeverities, ofSeverities, h.length_eq, h.count_eq, h.count_eq, h.count_eq, h.count_eq]

namespace Merger

variable {m m' : Merger} {xs : List Addition} {k : MergeKey} {t : Nat}
  {detected found found' : List Finding}

theorem Shows.findings_eq_final (h : m.Shows xs) :
    m.findings = (listed xs).filterMap (final xs) := by
  rw [h.findings_eq]
  exact List.filterMap_congr fun i _ => h.pool i

/-- A first addition with a key is listed, and no listed finding before it has its key. -/
theorem find?_listed (hkey : keyAt xs t = some k) (hfirst : ¬ Repeats xs t) :
    (listed xs).find? (fun i => keyAt xs i = some k) = some t := by
  rw [listed, List.find?_filter, List.find?_range_eq_some]
  refine ⟨?_, List.mem_range.mpr (lt_length_of_keyAt hkey), fun j hj => ?_⟩
  · have hlisted : ¬ IsAbsorbed xs t := fun habsorbed => hfirst habsorbed.2
    simp [hlisted, hkey]
  · have hne : keyAt xs j ≠ some k := fun hj' => hfirst ⟨j, hj, hj'.trans hkey.symm⟩
    simp [hne]

/-- The listed finding that others are merged into is the first one that was added. -/
theorem Shows.withKey?_findings (h : m.Shows xs) (hkey : keyAt xs t = some k)
    (hfirst : ¬ Repeats xs t) : Finding.withKey? m.findings k = final xs t := by
  have hkeys : (fun i => (final xs i).any fun f => f.mergeKey = k) =
      fun i => decide (keyAt xs i = some k) := by
    funext i
    rw [← map_mergeKey_final]
    cases final xs i <;> simp
  rw [h.findings_eq_final, Finding.withKey?, List.find?_filterMap, hkeys,
    find?_listed hkey hfirst, Option.bind_some]

/-- It is the finding that the index of the merger leads to. -/
theorem Shows.withKey?_eq_target (h : m.Shows xs) (ht : m.target? k = some t) :
    Finding.withKey? m.findings k = m.pool[t]? := by
  obtain ⟨hkey, hfirst⟩ := (h.target k t).mp ht
  rw [h.withKey?_findings hkey hfirst, h.pool]

/-- The keys of the listed findings are those of all that were added. -/
theorem Shows.mem_keys_iff (h : m.Shows xs) :
    k ∈ m.findings.map Finding.mergeKey ↔ ∃ i, keyAt xs i = some k := by
  rw [h.findings_eq_final, List.map_filterMap, List.mem_filterMap]
  simp only [map_mergeKey_final]
  constructor
  · rintro ⟨i, -, hi⟩
    exact ⟨i, hi⟩
  · rintro ⟨i, hi⟩
    obtain ⟨t, -, ht, hfirst⟩ := exists_first hi
    exact ⟨t, List.mem_of_find?_eq_some (find?_listed ht hfirst), ht⟩

theorem exists_keyAt_iff_mem : (∃ i, keyAt xs i = some k) ↔ k ∈ xs.map Addition.key := by
  simp only [keyAt, ← List.getElem?_map]
  exact List.mem_iff_getElem?.symm

theorem map_key_inTurn (detected found : List Finding) :
    (inTurn detected found).map Addition.key =
      detected.map Finding.mergeKey ++ found.map Finding.mergeKey := by
  rw [inTurn, List.map_append, List.map_map, List.map_map]
  rfl

/-- **The order of the findings of tools does not matter to what is reported.** -/
theorem sameReport_of_shows (h : found.Perm found') (hm : m.Shows (inTurn detected found))
    (hm' : m'.Shows (inTurn detected found')) : SameReport m.findings m'.findings := by
  have hkeys : ∀ k, (∃ i, keyAt (inTurn detected found) i = some k) ↔
      ∃ i, keyAt (inTurn detected found') i = some k := by
    intro k
    rw [exists_keyAt_iff_mem, exists_keyAt_iff_mem, map_key_inTurn, map_key_inTurn,
      List.mem_append, List.mem_append, (h.map _).mem_iff]
  have hseverities : (m.findings.map Finding.severity).Perm
      (m'.findings.map Finding.severity) := by
    rw [hm.findings_eq_final, hm'.findings_eq_final, List.map_filterMap, List.map_filterMap]
    exact severities_perm h detected
  have hlength : m.findings.length = m'.findings.length := by
    have hperm := hseverities.length_eq
    rwa [List.length_map, List.length_map] at hperm
  refine ⟨hlength, fun k => ?_, hseverities, Summary.ofSeverities_perm hseverities,
    fun k f hf => ?_⟩
  · rw [hm.mem_keys_iff, hm'.mem_keys_iff, hkeys]
  · -- the findings that absorb others are made of first additions with the key, in both orders
    have hmem : k ∈ m.findings.map Finding.mergeKey :=
      List.mem_map.mpr ⟨f, Finding.mem_of_withKey? hf⟩
    obtain ⟨i, hi⟩ := hm.mem_keys_iff.mp hmem
    obtain ⟨t, -, ht, hfirst⟩ := exists_first hi
    obtain ⟨i', hi'⟩ := (hkeys k).mp ⟨i, hi⟩
    obtain ⟨t', -, ht', hfirst'⟩ := exists_first hi'
    obtain ⟨x, hx, hxkey⟩ := Option.map_eq_some_iff.mp ht
    obtain ⟨x', hx', hxkey'⟩ := Option.map_eq_some_iff.mp ht'
    rw [hm.withKey?_findings ht hfirst, final, hx] at hf
    obtain rfl : x.finding.absorbAll (absorbedInto (inTurn detected found) t) = f :=
      Option.some_inj.mp hf
    refine ⟨_, ?_, agrees_final h hx hfirst hx' hfirst' (hxkey.trans hxkey'.symm)⟩
    rw [hm'.withKey?_findings ht' hfirst', final, hx']
    rfl

theorem shows_batches (detected : List Finding) (sources : List (List Finding)) :
    (ofBatches (batches detected sources)).Shows (inTurn detected sources.flatten) := by
  rw [← additions_batches]
  exact shows_ofBatches _

/-- Batches of tools are added to those of detectors one after the other. -/
theorem ofBatches_batches (detected : List Finding) (sources : List (List Finding)) :
    ofBatches (batches detected sources) =
      sources.foldl insertStatic (insertDetected {} detected) := by
  rw [ofBatches, batches, List.foldl_cons, List.foldl_map]
  rfl

end Merger

theorem Finding.sameReport_mergeAll (detected : List Finding)
    {sources sources' : List (List Finding)} (h : sources.flatten.Perm sources'.flatten) :
    SameReport (mergeAll detected sources) (mergeAll detected sources') := by
  rw [mergeAll, mergeAll, ← Merger.ofBatches_batches, ← Merger.ofBatches_batches]
  exact Merger.sameReport_of_shows h (Merger.shows_batches detected sources)
    (Merger.shows_batches detected sources')

end TraceAudit
