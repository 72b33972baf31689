import TraceAudit.Proofs.Detector.Exposure
import TraceAudit.Proofs.Frame.Truncation

/-!
# Exposed calls of a longer trace

A trace that goes on adds to what the detector of reentrancy in frames reports and takes nothing
away. Reconstruction does not look ahead, so the steps of the beginning keep their owners and its
frames their ids and targets (`Context.Extends`). A call that was exposed is exposed still, with
more writes behind the ones that it had (`ExposedCall.exists_continued`), and so is a slot
(`ReentrancyHit.exists_continued`).

The steps of the beginning carry their positions. Of the steps that follow nothing is asked.

The main statement is `exposed_continued_of_build`.
-/

namespace TraceAudit

/-! ### Continued hits -/

/-- An exposed call and the same call of the same frame with more writes behind it. -/
structure ExposedCall.ContinuedBy (e e' : ExposedCall) : Prop where
  frame : e.frame.id = e'.frame.id
  call : e.call = e'.call
  writes : e.writes <+: e'.writes

/-- A hit and the hit of the same kind on the same call of the same frame, for the same slot if it
is about one, with more writes behind those that it is about. -/
inductive ReentrancyHit.ContinuedBy : ReentrancyHit → ReentrancyHit → Prop
  | lateWrites {e e' : ExposedCall} (call : e.ContinuedBy e') :
    ContinuedBy (.lateWrites e) (.lateWrites e')
  | race {e e' : ExposedCall} {slot : String} {ws ws' : List StorageWrite}
    (call : e.ContinuedBy e') (writes : ws <+: ws') :
    ContinuedBy (.race e slot ws) (.race e' slot ws')

/-- A finding and one of the longer trace that continues it: as severe and with the same tags, for
the same frame and the same call, with more writes behind those that are listed; and if it is about
a race, then for the same slot, with more writes to this slot. -/
structure Finding.ContinuedBy (f f' : Finding) : Prop where
  severity : f'.severity = f.severity
  tags : f'.tags = f.tags
  frame : ∃ id, f.evidenceOf "frame_id" = .int id ∧ f'.evidenceOf "frame_id" = .int id
  call : ∃ step, f.callStep = .int step ∧ f'.callStep = .int step
  sstores : ∃ ws ws' : List StorageWrite, ws <+: ws' ∧
    f.evidenceOf "sstores" = .list (ws.map StorageWrite.toValue) ∧
    f'.evidenceOf "sstores" = .list (ws'.map StorageWrite.toValue)
  race : "state-race" ∈ f.tags → ∃ (slot : String) (ws ws' : List StorageWrite), ws <+: ws' ∧
    f.evidenceOf "multiple_writes" = ReentrancyHit.raceEvidence slot ws ∧
    f'.evidenceOf "multiple_writes" = ReentrancyHit.raceEvidence slot ws'

/-! ### Contexts of a trace and of its beginning -/

/-- The second context is about a trace that goes on where the trace of the first one ends. The
steps of the first keep their owners, and the frames their ids and targets. -/
structure Context.Extends (c c' : Context) : Prop where
  steps : c.steps.toList <+: c'.steps.toList
  frameOf : ∀ s ∈ c.steps.toList, c'.frameOf s.index = c.frameOf s.index
  frames : ∀ f ∈ c.frames, ∃ f' ∈ c'.frames, f'.id = f.id ∧ f'.target = f.target

variable {c c' : Context} {tx : Transaction} {t : CallFrames}

theorem Context.Extends.writesBehind (h : c.Extends c') (step frame : Int) :
    c.writesBehind step frame <+: c'.writesBehind step frame := by
  obtain ⟨more, hmore⟩ := h.steps
  have hkept : c.steps.toList.filter (fun s => step < s.index ∧ c.frameOf s.index = some frame) =
      c.steps.toList.filter fun s => step < s.index ∧ c'.frameOf s.index = some frame :=
    List.filter_congr fun s hs => by rw [h.frameOf s hs]
  rw [Context.writesBehind, Context.writesBehind, hkept, ← hmore, List.filter_append]
  exact (List.prefix_append _ _).filterMap _

theorem Context.Extends.step?_eq (h : c.Extends c') {p : Int} {s : Step} (hs : c.step? p = some s) :
    c'.step? p = some s := by
  obtain ⟨hnonneg, hget⟩ := Context.step?_eq_some_iff.mp hs
  obtain ⟨more, hmore⟩ := h.steps
  obtain ⟨hlt, -⟩ := List.getElem?_eq_some_iff.mp hget
  refine Context.step?_eq_some_iff.mpr ⟨hnonneg, ?_⟩
  rw [← hmore, List.getElem?_append_left hlt, hget]

/-- **An exposed call stays exposed.** -/
theorem ExposedCall.exists_continued (h : c.Extends c') {e : ExposedCall} (he : e.Shown c) :
    ∃ e' : ExposedCall, e'.Shown c' ∧ e.ContinuedBy e' := by
  obtain ⟨f', hf', hid, htarget⟩ := h.frames e.frame he.frame_mem
  have hwrites : e.writes <+: c'.writesBehind e.call.index f'.id := by
    rw [he.writes, hid]
    exact h.writesBehind _ _
  refine ⟨⟨f', e.call, c'.openedAt e.call.index, e.target, c'.writesBehind e.call.index f'.id⟩,
    ?_, ⟨hid.symm, rfl, hwrites⟩⟩
  exact {
    call_mem := h.steps.subset he.call_mem
    isExternalCall := he.isExternalCall
    frame_mem := hf'
    owner := by rw [h.frameOf e.call he.call_mem, he.owner, hid]
    opened := rfl
    target := he.target
    writes := rfl
    writes_ne_nil := fun hnil => he.writes_ne_nil (List.prefix_nil.mp (hnil ▸ hwrites))
    comesBack := by rw [htarget]; exact he.comesBack }

/-- **A hit stays a hit.** -/
theorem ReentrancyHit.exists_continued (h : c.Extends c') {hit : ReentrancyHit}
    (hhit : hit.Shown c) : ∃ hit' : ReentrancyHit, hit'.Shown c' ∧ hit.ContinuedBy hit' := by
  obtain ⟨e', he', hcontinued⟩ := ExposedCall.exists_continued h hhit.exposed
  cases hit with
  | lateWrites e => exact ⟨lateWrites e', he', .lateWrites hcontinued⟩
  | race e slot ws =>
    obtain ⟨-, rfl, hlength⟩ := hhit
    have hwrites : e.writes.filter (fun w => w.slot = slot) <+:
        e'.writes.filter fun w => w.slot = slot := hcontinued.writes.filter _
    exact ⟨race e' slot _, ⟨he', rfl, hlength.trans hwrites.length_le⟩, .race hcontinued hwrites⟩

theorem ReentrancyHit.ContinuedBy.call_eq {hit hit' : ReentrancyHit}
    (h : hit.ContinuedBy hit') : hit.exposed.call = hit'.exposed.call := by
  cases h with
  | lateWrites hcontinued => exact hcontinued.call
  | race hcontinued => exact hcontinued.call

/-- **Reports are continued.** What is reported of an ingested trace is continued by what is
reported of a trace that goes on. -/
theorem ReentrancyHit.exists_continued_of_mem_all {part : CallFrames} (h : c.Extends c')
    (hpart : c.Rebuilt tx part) (hindexed : c.Indexed) (hwhole : c'.Rebuilt tx t)
    {hit : ReentrancyHit} (hhit : hit ∈ all c) : ∃ hit' ∈ all c', hit.ContinuedBy hit' := by
  have hshown := (mem_all_iff hpart hindexed).mp hhit
  obtain ⟨hit', hshown', hcontinued⟩ := exists_continued h hshown
  refine ⟨hit', mem_all_of_shown hwhole hshown' ?_, hcontinued⟩
  rw [← hcontinued.call_eq]
  exact h.step?_eq (hindexed.step?_index hshown.exposed.call_mem)

theorem exists_of_forall₂_right {α β : Type} {R : α → β → Prop} {as : List α} {bs : List β}
    (h : List.Forall₂ R as bs) {b : β} (hb : b ∈ bs) : ∃ a ∈ as, R a b := by
  induction h with
  | nil => exact nomatch hb
  | cons hab _ ih =>
    rcases List.mem_cons.mp hb with rfl | hb
    · exact ⟨_, List.mem_cons_self, hab⟩
    · obtain ⟨a, ha, hR⟩ := ih hb
      exact ⟨a, List.mem_cons_of_mem _ ha, hR⟩

/-- The write-up of a hit is continued by the write-up of the hit that continues it. -/
theorem ReentrancyHit.ContinuedBy.finding {hit hit' : ReentrancyHit} (h : hit.ContinuedBy hit')
    (id id' : String) : (Detector.frameReentrancy.info.finding id hit.draft).ContinuedBy
      (Detector.frameReentrancy.info.finding id' hit'.draft) := by
  have hframe : hit'.exposed.frame.id = hit.exposed.frame.id := by
    cases h with
    | lateWrites hcontinued => exact hcontinued.frame.symm
    | race hcontinued => exact hcontinued.frame.symm
  have hreported := hit.reportedBy_finding id
  have hreported' := hit'.reportedBy_finding id'
  refine ⟨?_, ?_, ⟨_, hreported.frame, ?_⟩, ⟨_, hreported.call, ?_⟩,
    ⟨_, _, ?_, hreported.sstores, hreported'.sstores⟩, fun hrace => ?_⟩
  · cases h with
    | lateWrites | race => rfl
  · cases h with
    | lateWrites | race => rfl
  · rw [hreported'.frame, hframe]
  · rw [hreported'.call, h.call_eq]
  · cases h with
    | lateWrites hcontinued => exact hcontinued.writes
    | race _ hwrites => exact hwrites
  · cases h with
    | lateWrites => exact absurd hrace hreported.marks.2.1
    | race _ hwrites => exact ⟨_, _, _, hwrites, hreported.marks.2.2, hreported'.marks.2.2⟩

/-- What is reported of hits is continued by what is reported of hits that continue them. -/
theorem Detector.exists_continued_of_reports {hits hits' : List ReentrancyHit}
    (h : frameReentrancy.Reports c ReentrancyHit.draft hits)
    (h' : frameReentrancy.Reports c' ReentrancyHit.draft hits')
    (hhits : ∀ hit ∈ hits, ∃ hit' ∈ hits', hit.ContinuedBy hit') (ids ids' : IdSequence) :
    ∃ fs fs', (frameReentrancy.run c ids).1.outcome = .ok fs ∧
      (frameReentrancy.run c' ids').1.outcome = .ok fs' ∧
      ∀ f ∈ fs, ∃ f' ∈ fs', f.ContinuedBy f' := by
  obtain ⟨fs, hfs, hall⟩ := h.exists_forall₂
    (R := fun hit f => ∃ id, f = frameReentrancy.info.finding id hit.draft)
    (fun _ _ id => ⟨id, rfl⟩) ids
  obtain ⟨fs', hfs', hall'⟩ := h'.exists_forall₂
    (R := fun hit f => ∃ id, f = frameReentrancy.info.finding id hit.draft)
    (fun _ _ id => ⟨id, rfl⟩) ids'
  refine ⟨fs, fs', hfs, hfs', fun f hf => ?_⟩
  obtain ⟨hit, hhit, id, rfl⟩ := exists_of_forall₂_right hall hf
  obtain ⟨hit', hhit', hcontinued⟩ := hhits hit hhit
  obtain ⟨f', hf', id', rfl⟩ := exists_of_forall₂_right hall'.flip hhit'
  exact ⟨_, hf', hcontinued.finding id id'⟩

/-! ### Reconstruction of a longer trace -/

/-- A trace that goes on extends its beginning, if the frames of the beginning are what it leaves of
the frames of the whole trace. -/
theorem CallFrames.Truncated.extends {steps : List Step} {whole part : CallFrames}
    {settings : Settings} (h : Truncated steps.length whole part)
    (hindexed : (Context.mk steps.toArray (some part) settings).Indexed) (more : List Step) :
    (Context.mk steps.toArray (some part) settings).Extends
      (Context.mk (steps ++ more).toArray (some whole) settings) where
  steps := List.prefix_append steps more
  frameOf s hs := by
    obtain ⟨hnonneg, hlt⟩ := hindexed.index_bounds hs
    have hlt : s.index < steps.length := hlt
    have howner : part.stepToFrame[s.index.toNat]? = whole.stepToFrame[s.index.toNat]? := by
      rw [← Array.getElem?_toList, h.owners, List.getElem?_take_of_lt (by omega),
        Array.getElem?_toList]
    simp [Context.frameOf, CallFrames.frameOf, hnonneg, howner]
  frames p hp := by
    obtain ⟨f, hf, htruncated⟩ := exists_of_forall₂_right h.frames hp
    have hid : p.opening.id = f.opening.id := congrArg Frame.id htruncated.opening
    have htarget : p.opening.target = f.opening.target := congrArg Frame.target htruncated.opening
    exact ⟨f, (List.mem_filter.mp hf).1, hid.symm, htarget.symm⟩

/-- Where reconstruction returns for a trace that goes on, it returns for its beginning, which the
trace extends. -/
theorem exists_extends_of_build {steps more : List Step} {whole : CallFrames}
    (hindex : ∀ (i : Nat) (s : Step), steps[i]? = some s → s.index = i)
    (hbuild : CallFrames.build (steps ++ more) tx = .ok whole) (settings : Settings) :
    ∃ part, CallFrames.build steps tx = .ok part ∧
      (Context.mk steps.toArray (some part) settings).Extends
        (Context.mk (steps ++ more).toArray (some whole) settings) := by
  have hreadable : ∀ s ∈ steps, ¬ s.Refused := fun s hs =>
    Nesting.not_refused_of_build hbuild s (List.mem_append_left more hs)
  obtain ⟨part, hpart⟩ : ∃ part, CallFrames.build steps tx = .ok part :=
    Nesting.exists_build hreadable
  refine ⟨part, hpart, ?_⟩
  by_cases hne : steps = []
  · -- nothing is asked of steps and frames where there are none
    subst hne
    cases hpart
    exact ⟨List.nil_prefix, fun s hs => absurd hs List.not_mem_nil,
      fun f hf => absurd hf List.not_mem_nil⟩
  · have htruncated : CallFrames.Truncated steps.length whole part := by
      rw [Nesting.build_eq_reconstruction hbuild (List.append_ne_nil_of_left_ne_nil hne more),
        Nesting.build_eq_reconstruction hpart hne]
      have hlength : steps.length ≤ (steps ++ more).length := by
        rw [List.length_append]
        exact Nat.le_add_right _ _
      have htake : (steps ++ more).take steps.length = steps := List.take_left
      have h : CallFrames.Truncated steps.length (Nesting.reconstruction (steps ++ more) tx)
          (Nesting.reconstruction ((steps ++ more).take steps.length) tx) :=
        Nesting.truncated_reconstruction hlength (List.length_pos_of_ne_nil hne)
      rwa [htake] at h
    exact htruncated.extends (Context.indexed_mk hindex _ _) more

/-- **A longer trace loses no exposed call.** Where frames are built for a trace that goes on after
steps which carry their positions, they are built for these steps, too. What the detector of
reentrancy in frames reports of these steps is continued by what it reports of the whole trace. -/
theorem exposed_continued_of_build (steps more : List Step) (tx : Transaction) (whole : CallFrames)
    (settings : Settings) (hindex : ∀ (i : Nat) (s : Step), steps[i]? = some s → s.index = i)
    (hbuild : CallFrames.build (steps ++ more) tx = .ok whole) :
    ∃ part, CallFrames.build steps tx = .ok part ∧ ∃ hits hits',
      Detector.frameReentrancy.Reports (Context.mk steps.toArray (some part) settings)
        ReentrancyHit.draft hits ∧
      Detector.frameReentrancy.Reports (Context.mk (steps ++ more).toArray (some whole) settings)
        ReentrancyHit.draft hits' ∧
      (∀ hit ∈ hits, ∃ hit' ∈ hits', hit.ContinuedBy hit') ∧
      ∀ ids ids', ∃ fs fs',
        (Detector.frameReentrancy.run
          (Context.mk steps.toArray (some part) settings) ids).1.outcome = .ok fs ∧
        (Detector.frameReentrancy.run (Context.mk (steps ++ more).toArray (some whole) settings)
          ids').1.outcome = .ok fs' ∧
        ∀ f ∈ fs, ∃ f' ∈ fs', f.ContinuedBy f' := by
  obtain ⟨part, hpart, hextends⟩ := exists_extends_of_build hindex hbuild settings
  have hindexed := Context.indexed_mk hindex (some part) settings
  have hcontinued : ∀ hit ∈ ReentrancyHit.all (Context.mk steps.toArray (some part) settings),
      ∃ hit' ∈ ReentrancyHit.all (Context.mk (steps ++ more).toArray (some whole) settings),
        hit.ContinuedBy hit' := fun hit hhit =>
    ReentrancyHit.exists_continued_of_mem_all hextends ⟨rfl, hpart⟩ hindexed ⟨rfl, hbuild⟩ hhit
  have hreports := Detector.frameReentrancy_reports
    (Context.mk steps.toArray (some part) settings)
  have hreports' := Detector.frameReentrancy_reports
    (Context.mk (steps ++ more).toArray (some whole) settings)
  exact ⟨part, hpart, _, _, hreports, hreports', hcontinued,
    Detector.exists_continued_of_reports hreports hreports' hcontinued⟩

/-- Behind its seventh step the trace goes on with a second write to one of the slots. -/
theorem exposed_continued_of_build_exposingTrace :
    (∀ (i : Nat) (s : Step), (exposingTrace.take 7)[i]? = some s → s.index = i) ∧
    ∃ whole, CallFrames.build (exposingTrace.take 7 ++ exposingTrace.drop 7) {} = .ok whole ∧
      (Context.mk (exposingTrace.take 7 ++ exposingTrace.drop 7).toArray
        (some whole) {}).reentrancies =
        ([([0, 0], [4, 6, 7]), ([0, 0, 4], [4, 7]), ([0, 5], [6, 7])],
          [("VUL-0001", .high), ("VUL-0002", .medium), ("VUL-0003", .high)]) ∧
      ∃ part, CallFrames.build (exposingTrace.take 7) {} = .ok part ∧
        (Context.mk (exposingTrace.take 7).toArray (some part) {}).reentrancies =
          ([([0, 0], [4, 6]), ([0, 5], [6])], [("VUL-0001", .high), ("VUL-0002", .high)]) ∧
        ∃ hits hits',
          Detector.frameReentrancy.Reports
            (Context.mk (exposingTrace.take 7).toArray (some part) {}) ReentrancyHit.draft hits ∧
          Detector.frameReentrancy.Reports
            (Context.mk (exposingTrace.take 7 ++ exposingTrace.drop 7).toArray (some whole) {})
            ReentrancyHit.draft hits' ∧
          (∀ hit ∈ hits, ∃ hit' ∈ hits', hit.ContinuedBy hit') ∧
          ∀ ids ids', ∃ fs fs',
            (Detector.frameReentrancy.run
              (Context.mk (exposingTrace.take 7).toArray (some part) {}) ids).1.outcome = .ok fs ∧
            (Detector.frameReentrancy.run
              (Context.mk (exposingTrace.take 7 ++ exposingTrace.drop 7).toArray (some whole) {})
              ids').1.outcome = .ok fs' ∧
            ∀ f ∈ fs, ∃ f' ∈ fs', f.ContinuedBy f' := by
  have hingest : Step.ingest .bottomFirst (.entries ((exposingTrace.take 7).map .step)) =
      .ok (exposingTrace.take 7) := rfl
  have hindex : ∀ (i : Nat) (s : Step), (exposingTrace.take 7)[i]? = some s → s.index = i :=
    fun i s hs => Step.index_of_ingest hingest hs
  have hbuild : (CallFrames.build (exposingTrace.take 7 ++ exposingTrace.drop 7) {}).toOption.any
      fun t => (Context.mk (exposingTrace.take 7 ++ exposingTrace.drop 7).toArray (some t)
        {}).reentrancies =
          ([([0, 0], [4, 6, 7]), ([0, 0, 4], [4, 7]), ([0, 5], [6, 7])],
            [("VUL-0001", .high), ("VUL-0002", .medium), ("VUL-0003", .high)]) := by
    decide +kernel
  have hbeginning : (CallFrames.build (exposingTrace.take 7) {}).toOption.any fun t =>
      (Context.mk (exposingTrace.take 7).toArray (some t) {}).reentrancies =
        ([([0, 0], [4, 6]), ([0, 5], [6])], [("VUL-0001", .high), ("VUL-0002", .high)]) := by
    decide +kernel
  obtain ⟨whole, hwhole, hhits⟩ := exists_of_any_toOption hbuild
  obtain ⟨part', hpart', hhits'⟩ := exists_of_any_toOption hbeginning
  obtain ⟨part, hpart, hcontinued⟩ := exposed_continued_of_build (exposingTrace.take 7)
    (exposingTrace.drop 7) {} whole {} hindex hwhole
  obtain rfl := Except.ok.inj (hpart'.symm.trans hpart)
  exact ⟨hindex, whole, hwhole, of_decide_eq_true hhits, part', hpart', of_decide_eq_true hhits',
    hcontinued⟩

end TraceAudit
