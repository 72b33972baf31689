import Mathlib.Data.Set.Finite.Lattice
import TraceAudit.Frame.Validate

/-!
# Validated frames form a forest

Validation looks at one frame at a time: at the ids that it mentions, at its depth against that of
its parent, and at its steps (`Frame.Sound`). Ids may be repeated, and then the last frame with an
id is the one that the id stands for (`Frame.StandsFor`).

That there are no cycles among parents is checked nowhere. It follows from depths: each parent is
one less deep, and a list has a least depth. So from every frame of a validated list the parents
lead to a frame without parent, after as many steps as the depths differ by (`Frame.Forest`). Depths
may be negative, and a frame that is its own parent would have to be deeper than itself.
-/

namespace TraceAudit.Frame

variable {frames : List Frame} {lastStep : Option Int} {f g h : Frame} {m n : Nat} {id : Int}

/-! ### Frames and ids -/

/-- The frame is the last one with the id in a list. -/
def StandsFor (frames : List Frame) (id : Int) (g : Frame) : Prop :=
  ∃ before behind, frames = before ++ g :: behind ∧ g.id = id ∧ ∀ h ∈ behind, h.id ≠ id

theorem withId?_eq_some_iff : withId? frames id = some g ↔ StandsFor frames id g := by
  rw [withId?, List.find?_eq_some_iff_append]
  constructor
  · rintro ⟨hid, behind, before, hsplit, hbehind⟩
    refine ⟨before.reverse, behind.reverse, ?_, eq_of_beq hid, ?_⟩
    · rw [← List.reverse_reverse frames, hsplit]
      simp
    · intro h hh
      simpa using hbehind h (List.mem_reverse.mp hh)
  · rintro ⟨before, behind, rfl, rfl, hbehind⟩
    refine ⟨beq_self_eq_true _, behind.reverse, before.reverse, by simp, ?_⟩
    intro h hh
    simpa using hbehind h (List.mem_reverse.mp hh)

theorem isSome_withId?_iff : (withId? frames id).isSome ↔ id ∈ frames.map Frame.id := by
  simp [withId?]

theorem StandsFor.mem (h : StandsFor frames id g) : g ∈ frames := by
  obtain ⟨before, behind, rfl, -, -⟩ := h
  simp

theorem StandsFor.id_eq (h : StandsFor frames id g) : g.id = id := by
  obtain ⟨before, behind, -, rfl, -⟩ := h
  rfl

theorem StandsFor.unique (hg : StandsFor frames id g) (hh : StandsFor frames id h) : g = h := by
  rw [← withId?_eq_some_iff] at hg hh
  exact Option.some.inj (hg.symm.trans hh)

theorem exists_standsFor (h : id ∈ frames.map Frame.id) : ∃ g, StandsFor frames id g := by
  obtain ⟨g, hg⟩ := Option.isSome_iff_exists.mp (isSome_withId?_iff.mpr h)
  exact ⟨g, withId?_eq_some_iff.mp hg⟩

/-! ### Frames without defects -/

/-- What validation asks of a frame in a list. -/
@[mk_iff]
structure Sound (frames : List Frame) (lastStep : Option Int) (f : Frame) : Prop where
  parent : ∀ p, f.parent = some p → p ∈ frames.map Frame.id
  children : ∀ c ∈ f.children, c ∈ frames.map Frame.id
  depth : ∀ p, f.parent = some p → ∀ g, StandsFor frames p g → f.depth = g.depth + 1
  start : 0 ≤ f.startStep
  forward : f.startStep ≤ f.endStep
  inside : ∀ last, lastStep = some last → f.endStep ≤ last

/-- A frame of which all checks come to nothing is sound, and only such a frame is. -/
theorem defects_eq_nil_iff : f.defects frames lastStep = [] ↔ f.Sound frames lastStep := by
  have hchildren : (f.children.filter fun c => (withId? frames c).isNone) = [] ↔
      ∀ c ∈ f.children, c ∈ frames.map Frame.id := by
    simp [List.filter_eq_nil_iff, ← isSome_withId?_iff, Option.ne_none_iff_isSome]
  have hrange : ¬ (f.startStep < 0 ∨ lastStep.any (· < f.endStep) = true) ↔
      0 ≤ f.startStep ∧ ∀ last, lastStep = some last → f.endStep ≤ last := by
    cases lastStep <;> simp
  simp only [defects, sound_iff, List.append_eq_nil_iff, List.map_eq_nil_iff, hchildren,
    ite_eq_right_iff, List.cons_ne_nil, imp_false, not_lt, hrange]
  cases f.parent with
  | none => grind
  | some p =>
    simp only [← isSome_withId?_iff, ← withId?_eq_some_iff, Option.bind_some, Option.some.injEq,
      forall_eq']
    rcases (withId? frames p).eq_none_or_eq_some with hp | ⟨g, hp⟩
    · simp [hp]
    · grind

theorem validate_eq_nil_iff :
    validate frames lastStep = [] ↔ ∀ f ∈ frames, f.Sound frames lastStep := by
  simp only [validate, List.flatMap_eq_nil_iff, List.map_eq_nil_iff, defects_eq_nil_iff]

/-! ### Parents -/

/-- From a frame to another one in a number of steps, each of them to the parent. -/
inductive Climbs (frames : List Frame) : Nat → Frame → Frame → Prop
  | stay (f : Frame) : Climbs frames 0 f f
  | up {n : Nat} {f g h : Frame} {p : Int} (hparent : f.parent = some p)
      (hp : StandsFor frames p g) (hg : Climbs frames n g h) : Climbs frames (n + 1) f h

/-- A frame is deeper than what it climbs to, by the number of steps. -/
theorem Climbs.depth_eq (hall : ∀ f ∈ frames, f.Sound frames lastStep) (hf : f ∈ frames)
    (hclimb : Climbs frames n f g) : f.depth = g.depth + n := by
  induction hclimb with
  | stay f => simp
  | up hparent hp _ ih =>
    have hstep := (hall _ hf).depth _ hparent _ hp
    have hrest := ih hp.mem
    omega

/-- There is one way up, and it ends at a frame without parent. -/
theorem Climbs.unique (hg : Climbs frames m f g) (hh : Climbs frames n f h)
    (hgparent : g.parent = none) (hhparent : h.parent = none) : m = n ∧ g = h := by
  induction hg generalizing n with
  | stay f =>
    cases hh with
    | stay => exact ⟨rfl, rfl⟩
    | up hparent => exact absurd (hgparent.symm.trans hparent) nofun
  | up hparent hp _ ih =>
    cases hh with
    | stay => exact absurd (hhparent.symm.trans hparent) nofun
    | up hparent' hp' hrest =>
      obtain rfl := Option.some.inj (hparent.symm.trans hparent')
      obtain rfl := hp.unique hp'
      obtain ⟨rfl, rfl⟩ := ih hrest hgparent
      exact ⟨rfl, rfl⟩

theorem exists_le_depth (frames : List Frame) : ∃ least : Int, ∀ f ∈ frames, least ≤ f.depth := by
  obtain ⟨least, hleast⟩ := (frames.map Frame.depth).toFinset.bddBelow
  exact ⟨least, fun f hf => hleast (by simpa using ⟨f, hf, rfl⟩)⟩

/-- From every frame there is a way up to one without parent. -/
theorem exists_climbs_root (hall : ∀ f ∈ frames, f.Sound frames lastStep) (hf : f ∈ frames) :
    ∃ root ∈ frames, root.parent = none ∧ ∃ n, Climbs frames n f root := by
  obtain ⟨least, hleast⟩ := exists_le_depth frames
  -- the way up goes on as long as the depth is above the least one
  induction hk : (f.depth - least).toNat using Nat.strong_induction_on generalizing f with
  | _ k ih =>
    cases hparent : f.parent with
    | none => exact ⟨f, hf, hparent, 0, .stay f⟩
    | some p =>
      obtain ⟨g, hg⟩ := exists_standsFor ((hall f hf).parent p hparent)
      have hdepth := (hall f hf).depth p hparent g hg
      have hbound := hleast g hg.mem
      obtain ⟨root, hroot, hnone, n, hclimb⟩ := ih _ (by omega) hg.mem rfl
      exact ⟨root, hroot, hnone, n + 1, .up hparent hg hclimb⟩

/-- **The parents of frames lead to frames without parents.** -/
structure Forest (frames : List Frame) : Prop where
  /-- From every frame the parents lead to one without parent, after as many steps as the depths
  differ by. -/
  rooted : ∀ f ∈ frames, ∃ root ∈ frames, root.parent = none ∧
    ∃ n : Nat, f.depth - root.depth = n ∧ Climbs frames n f root
  /-- There is only one such frame and only one way to it. -/
  unique : ∀ f ∈ frames, ∀ m n root root', root.parent = none → root'.parent = none →
    Climbs frames m f root → Climbs frames n f root' → m = n ∧ root = root'
  /-- No frame is above itself. -/
  acyclic : ∀ f ∈ frames, ∀ n, ¬ Climbs frames (n + 1) f f

theorem forest_of_sound (hall : ∀ f ∈ frames, f.Sound frames lastStep) : Forest frames where
  rooted f hf := by
    obtain ⟨root, hroot, hnone, n, hclimb⟩ := exists_climbs_root hall hf
    have hdepth := hclimb.depth_eq hall hf
    exact ⟨root, hroot, hnone, n, by omega, hclimb⟩
  unique f _ m n root root' hroot hroot' hclimb hclimb' := hclimb.unique hclimb' hroot hroot'
  acyclic f hf n hclimb := by
    have hdepth := hclimb.depth_eq hall hf
    omega

/-- **Validation accepts the frames that it should, and these form a forest.** It reports nothing
exactly if each frame is sound, and then no parents lead around in a circle. -/
theorem validates_iff_and_forest (frames : List Frame) (lastStep : Option Int) :
    (validate frames lastStep = [] ↔ ∀ f ∈ frames, f.Sound frames lastStep) ∧
      (validate frames lastStep = [] → Forest frames) :=
  ⟨validate_eq_nil_iff, fun h => forest_of_sound (validate_eq_nil_iff.mp h)⟩

/-- A frame without parent at a negative depth. -/
def lowRoot : Frame :=
  { id := 1, depth := -2, endStep := 2, children := [2] }

/-- A frame below it. -/
def lowChild : Frame :=
  { id := 2, parent := some 1, depth := -1, startStep := 1, endStep := 2 }

/-- The two frames, and before them another one with the same id. -/
def shadowedFrames : List Frame :=
  [{ id := 1, depth := 5, endStep := 2 }, lowChild, lowRoot]

/-- The way up leads to the last frame with the id. A frame that is its own parent is reported for
its depth. -/
theorem validates_iff_and_forest_shadowedFrames :
    validate shadowedFrames (some 2) = [] ∧ Climbs shadowedFrames 1 lowChild lowRoot ∧
      (∀ n root, root.parent = none → Climbs shadowedFrames n lowChild root →
        n = 1 ∧ root = lowRoot) ∧
      validate [{ id := 0, parent := some 0 }] none = [⟨0, .depth 0 0⟩] := by
  have hvalid : validate shadowedFrames (some 2) = [] := by decide
  have hforest := (validates_iff_and_forest shadowedFrames (some 2)).2 hvalid
  have hparent : StandsFor shadowedFrames 1 lowRoot := withId?_eq_some_iff.mp (by decide)
  have hway : Climbs shadowedFrames 1 lowChild lowRoot := .up rfl hparent (.stay _)
  refine ⟨hvalid, hway, fun n root hroot hclimb => ?_, by decide⟩
  exact hforest.unique lowChild (by decide) _ _ _ _ hroot rfl hclimb hway

end TraceAudit.Frame
