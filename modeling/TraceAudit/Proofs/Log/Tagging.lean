import TraceAudit.Proofs.Log.Runs

/-!
# Records inside of runs

A program is somewhere inside of the runs that are open there (`Session.Inside`). There the handlers
that the channel of the runs reaches carry the tags of these runs behind their own filters and all
else is as it was (`Session.Marked`). So a record from the channel or from below it gets the
innermost run from each of these handlers, and other records fare as they would outside of all runs.
-/

namespace TraceAudit.Log

variable {s t u : Session} {scope : String} {run : Value} {runs : List Value} {h : Handler}
  {id : Nat}

namespace Session

/-- Somewhere in a program that is performed from a state on: the runs that are open there, the
innermost first, and the state of logging there. -/
inductive Inside (scope : String) (s : Session) : List Value → Session → Prop
  /-- Before any run. -/
  | outside : Inside scope s [] s
  /-- At the beginning of a block. -/
  | opened {runs : List Value} {t u : Session} (run : Value) (before : Inside scope s runs t)
      (enters : t.enter ⟨run, .text scope⟩ = .ok u) : Inside scope s (run :: runs) u
  /-- Behind a part of the program that has ended, be it by a fault. -/
  | behind {runs : List Value} {t : Session} (script : Script) (before : Inside scope s runs t) :
      Inside scope s runs (script.perform t).session

/-- The runs whose tags a handler carries: all that are open, if it is reached. -/
def openAt (s : Session) (scope : String) (runs : List Value) (id : Nat) : List Value :=
  if id ∈ s.reachable scope then runs else []

/-- The state of logging inside of runs: the handlers that are reached carry the tags of the runs,
and all else is as it was. -/
structure Marked (scope : String) (runs : List Value) (s t : Session) : Prop where
  rootLevel : t.rootLevel = s.rootLevel
  channels : t.channels = s.channels
  handlers : ∀ id,
    Option.Rel (Handler.Marked scope (s.openAt scope runs id)) (s.handler? id) (t.handler? id)

theorem reachable_congr (hchannels : t.channels = s.channels) (name : String) :
    t.reachable name = s.reachable name := by
  have hfrom : ∀ names, t.reachFrom names = s.reachFrom names := by
    intro names
    induction names with
    | nil => rfl
    | cons name above ih =>
      have hchannel : t.channel name = s.channel name := by rw [channel, hchannels, channel]
      rw [reachFrom, reachFrom, hchannel, ih]
  exact hfrom (lineage name)

theorem handler?_of_enter (hu : s.enter ⟨run, .text scope⟩ = .ok u) (id : Nat) :
    u.handler? id = (s.handler? id).map (s.inNextRun scope ⟨run, .text scope⟩) := by
  rw [enter_text] at hu
  obtain rfl := Except.ok.inj hu
  have hid : (fun h : Handler => decide (h.id = id)) ∘ s.inNextRun scope ⟨run, .text scope⟩ =
      fun h => decide (h.id = id) := by
    funext h
    simp
  rw [handler?, List.find?_map, hid, handler?]

theorem mem_and_id_of_handler? (hh : s.handler? id = some h) : h ∈ s.handlers ∧ h.id = id :=
  ⟨List.mem_of_find?_eq_some hh, by simpa using List.find?_some hh⟩

theorem Marked.refl (scope : String) (s : Session) : Marked scope [] s s where
  rootLevel := rfl
  channels := rfl
  handlers id := by
    rw [openAt, ite_self]
    cases s.handler? id with
    | none => exact .none
    | some h => exact .some (Handler.marked_nil_iff.mpr rfl)

/-- A handler is there with marks if it is there without them. -/
theorem Marked.handler?_cases (hmarked : Marked scope runs s t) (id : Nat) :
    (s.handler? id = none ∧ t.handler? id = none) ∨
      ∃ h h', s.handler? id = some h ∧ t.handler? id = some h' ∧
        h.Marked scope (s.openAt scope runs id) h' := by
  have hrel := hmarked.handlers id
  generalize s.handler? id = old, t.handler? id = inner at hrel ⊢
  cases hrel with
  | none => exact .inl ⟨rfl, rfl⟩
  | some hh => exact .inr ⟨_, _, rfl, rfl, hh⟩

theorem Marked.exists_of_handler? (hmarked : Marked scope runs s t) {h' : Handler}
    (hh' : t.handler? id = some h') :
    ∃ h, s.handler? id = some h ∧ h.Marked scope (s.openAt scope runs id) h' := by
  rcases hmarked.handler?_cases id with ⟨-, hnone⟩ | ⟨h, g, hh, hg, hmark⟩
  · rw [hnone] at hh'
    cases hh'
  · rw [hg] at hh'
    obtain rfl := Option.some.inj hh'
    exact ⟨h, hh, hmark⟩

theorem Marked.enter (hmarked : Marked scope runs s t) (hu : t.enter ⟨run, .text scope⟩ = .ok u) :
    Marked scope (run :: runs) s u := by
  have hreach : t.reachable scope = s.reachable scope := reachable_congr hmarked.channels scope
  have hopened := Except.ok.inj ((t.enter_text run scope).symm.trans hu)
  refine ⟨?_, ?_, fun id => ?_⟩
  · rw [← hopened, ← hmarked.rootLevel]
  · rw [← hopened, ← hmarked.channels]
  · rw [handler?_of_enter hu]
    rcases hmarked.handler?_cases id with ⟨hold, hinner⟩ | ⟨h, h', hold, hinner, hmark⟩
    · rw [hold, hinner]
      exact .none
    · obtain ⟨hmem, rfl⟩ := mem_and_id_of_handler? hinner
      rw [hold, hinner, Option.map_some, inNextRun, hreach]
      refine .some ?_
      unfold openAt at hmark ⊢
      split
      case isTrue hid =>
        rw [if_pos hid] at hmark
        exact hmark.addFilter (newNumber_notMem hmem) run
      case isFalse hid => rwa [if_neg hid] at hmark

theorem Inside.marked (hinside : Inside scope s runs t) : Marked scope runs s t := by
  induction hinside with
  | outside => exact .refl scope s
  | opened run _ enters ih => exact ih.enter enters
  | behind script _ ih => rwa [script.session_perform]

/-! ### Records inside of runs -/

/-- The filters on the handlers leave the channel of records as it is. -/
def KeepsChannels (s : Session) : Prop :=
  ∀ id h, s.handler? id = some h → ∀ r v, h.judge r = .ok v → v.record.channel = r.channel

theorem Marked.keepsChannels (hmarked : Marked scope runs s t) (hs : s.KeepsChannels) :
    t.KeepsChannels := by
  intro id h' hh' r v' hv'
  obtain ⟨h, hh, hmark⟩ := hmarked.exists_of_handler? hh'
  rw [hmark.judge] at hv'
  obtain ⟨v, hv, rfl⟩ := exists_of_map_eq_ok hv'
  rw [Verdict.channel_inRuns]
  exact hs id h hh r v hv

theorem Marked.handled_eq (hmarked : Marked scope runs s t) (r : Record) :
    t.handled r = if s.isEnabled r.level then
      deliver r ((s.reachable r.channel).filterMap t.handler?) else ([], none) := by
  rw [handled, reachable_congr hmarked.channels, isEnabled, hmarked.rootLevel, isEnabled]

/-- What comes from outside of the scope is handled as ever. -/
theorem Marked.handled_of_not_isWithin (hmarked : Marked scope runs s t) (hs : s.KeepsChannels)
    {r : Record} (hr : RunTag.isWithin r.channel scope = false) : t.handled r = s.handled r := by
  rw [hmarked.handled_eq, handled]
  congr 1
  refine deliver_congr (fun r' => r'.channel = r.channel) ?_ rfl
  have hids : List.Forall₂ Eq (s.reachable r.channel) (s.reachable r.channel) :=
    List.forall₂_refl _
  refine List.rel_filterMap ?_ hids
  rintro id _ rfl
  rcases hmarked.handler?_cases id with ⟨hold, hinner⟩ | ⟨h, h', hold, hinner, hmark⟩
  · rw [hold, hinner]
    exact .none
  · rw [hold, hinner]
    refine .some ⟨?_, fun r' hr' => ?_⟩
    · obtain ⟨added, rfl, -⟩ := hmark
      rfl
    · have hkeeps : ∀ v, h.judge r' = .ok v → v.record.channel = r.channel :=
        fun v hv => (hs id h hold r' v hv).trans hr'
      refine ⟨?_, hkeeps⟩
      rw [hmark.judge]
      cases hv : h.judge r' with
      | error fault => rfl
      | ok v =>
        rw [← hkeeps v hv] at hr
        rw [Except.map, Verdict.inRuns_of_not_isWithin hr]

theorem Marked.handler?_of_unreached (hmarked : Marked scope runs s t)
    (hid : id ∉ s.reachable scope) : t.handler? id = s.handler? id := by
  rcases hmarked.handler?_cases id with ⟨hold, hinner⟩ | ⟨h, h', hold, hinner, hmark⟩
  · rw [hold, hinner]
  · rw [openAt, if_neg hid] at hmark
    rw [hold, hinner, Handler.marked_nil_iff.mp hmark]

/-- What only handlers take that are not reached is handled as ever. -/
theorem Marked.handled_of_unreached (hmarked : Marked scope runs s t) {r : Record}
    (hr : ∀ id ∈ s.reachable r.channel, id ∉ s.reachable scope) : t.handled r = s.handled r := by
  rw [hmarked.handled_eq, handled]
  congr 2
  exact List.filterMap_congr fun id hid => hmarked.handler?_of_unreached (hr id hid)

/-- What is handled has passed the filters of the handler that takes it. What all handlers keep up
on the way there holds of it. -/
theorem exists_of_mem_handled (kept : Record → Prop) {r : Record} {d : Delivery}
    (hkeeps : ∀ id h, s.handler? id = some h → ∀ r v, kept r → h.judge r = .ok v → kept v.record)
    (hr : kept r) (hd : d ∈ (s.handled r).1) :
    ∃ h, s.handler? d.handler = some h ∧ ∃ r' v, h.judge r' = .ok v ∧ v.passes ∧
      kept v.record ∧ d.record = v.record := by
  rw [handled] at hd
  split at hd
  case isTrue =>
    have hall : ∀ h ∈ (s.reachable r.channel).filterMap s.handler?, s.handler? h.id = some h := by
      intro h hh
      obtain ⟨id, -, hfound⟩ := List.mem_filterMap.mp hh
      obtain ⟨-, rfl⟩ := mem_and_id_of_handler? hfound
      exact hfound
    obtain ⟨h, hh, r', v, hv, hpasses, hkept, rfl⟩ :=
      exists_of_mem_deliver kept (fun h hh => hkeeps h.id h (hall h hh)) hr hd
    exact ⟨h, hall h hh, r', v, hv, hpasses, hkept, rfl⟩
  case isFalse => exact absurd hd List.not_mem_nil

/-- **A record from the scope gets the innermost run** from a handler that is reached. -/
theorem Marked.get?_of_mem_handled {outer : List Value} {r : Record} {d : Delivery}
    (hmarked : Marked scope (run :: outer) s t) (hd : d ∈ (t.handled r).1)
    (hreached : d.handler ∈ s.reachable scope) (hscope : RunTag.isWithin d.record.channel scope) :
    d.record.details.get? "run_id" = some run := by
  obtain ⟨h', hh', r', v', hv', hpasses, -, hrecord⟩ :=
    exists_of_mem_handled (fun _ => True) (fun _ _ _ _ _ _ _ => trivial) trivial hd
  obtain ⟨h, hh, hmark⟩ := hmarked.exists_of_handler? hh'
  rw [openAt, if_pos hreached] at hmark
  rw [hmark.judge] at hv'
  obtain ⟨v, hv, rfl⟩ := exists_of_map_eq_ok hv'
  rw [hrecord, Verdict.channel_inRuns] at hscope
  have hrun : d.record = v.record.inRuns scope (run :: outer) := hrecord.trans (if_pos hpasses)
  rw [hrun]
  exact Record.get?_inRuns hscope run outer

theorem KeepsChannels.channel_of_mem_handled (hs : s.KeepsChannels) {r : Record} {d : Delivery}
    (hd : d ∈ (s.handled r).1) : d.record.channel = r.channel := by
  obtain ⟨h, -, r', v, -, -, hkept, hrecord⟩ := exists_of_mem_handled
    (fun r' => r'.channel = r.channel) (fun id h hh r' v hr' hv => (hs id h hh r' v hv).trans hr')
    rfl hd
  rw [hrecord, hkept]

/-- **Inside of runs of a channel.** The state of logging `s` is the one before all of them, `t` the
one inside. -/
structure Scoped (scope : String) (s : Session) (runs : List Value) (t : Session) : Prop where
  /-- Each block leaves the state of logging as it was: the filters of all handlers, the channels
  and the runs that are open. -/
  restored : ∀ tag body, ((Script.within tag body).perform t).session = t
  /-- A run can be opened, and what its body writes and the fault that it ends with are those of the
  block. -/
  passedOn : ∀ run body, ∃ u, t.enter ⟨run, .text scope⟩ = .ok u ∧
    ((Script.within ⟨run, .text scope⟩ body).perform t).fault = (body.perform u).fault ∧
    ((Script.within ⟨run, .text scope⟩ body).perform t).lines = (body.perform u).lines
  /-- A handler that is reached has the tags of the open runs behind its filters. It judges as it
  would without them, but what it lets pass from the scope gets the innermost run. -/
  reached : ∀ id ∈ s.reachable scope, ∀ h, s.handler? id = some h →
    ∃ h', t.handler? id = some h' ∧ h.Marked scope runs h' ∧
      ∀ r, h'.judge r = (h.judge r).map (Verdict.inRuns scope runs)
  /-- Another handler is as it was. -/
  unreached : ∀ id, id ∉ s.reachable scope → t.handler? id = s.handler? id
  /-- A record from the scope that is handled by a handler that is reached has the innermost run. -/
  marked : ∀ r, ∀ d ∈ (t.handled r).1, d.handler ∈ s.reachable scope →
    RunTag.isWithin d.record.channel scope →
    ∀ run ∈ runs.head?, d.record.details.get? "run_id" = some run
  /-- Records keep their channel if the filters of the handlers leave it alone. -/
  channel : s.KeepsChannels → ∀ r, ∀ d ∈ (t.handled r).1, d.record.channel = r.channel
  /-- A record from outside of the scope is handled as ever. -/
  foreign : s.KeepsChannels → ∀ r, RunTag.isWithin r.channel scope = false →
    t.handled r = s.handled r
  /-- So is a record that only other handlers take. -/
  elsewhere : ∀ r, (∀ id ∈ s.reachable r.channel, id ∉ s.reachable scope) →
    t.handled r = s.handled r

/-- **Runs tag and restore.** -/
theorem tags_and_restores (hinside : Inside scope s runs t) : Scoped scope s runs t := by
  have hmarked := hinside.marked
  refine {
    restored := fun tag body => (Script.within tag body).session_perform t
    passedOn := ?_
    reached := ?_
    unreached := fun _ => hmarked.handler?_of_unreached
    marked := ?_
    channel := fun hs r d => (hmarked.keepsChannels hs).channel_of_mem_handled
    foreign := fun hs r => hmarked.handled_of_not_isWithin hs
    elsewhere := fun r => hmarked.handled_of_unreached }
  · intro run body
    have hu := t.enter_text run scope
    refine ⟨_, hu, ?_⟩
    rw [Script.perform, within_of_enter hu (body.session_perform _)]
    exact ⟨rfl, rfl⟩
  · intro id hid h hh
    rcases hmarked.handler?_cases id with ⟨hold, -⟩ | ⟨g, h', hold, hinner, hmark⟩
    · rw [hold] at hh
      cases hh
    · rw [hold] at hh
      obtain rfl := Option.some.inj hh
      rw [openAt, if_pos hid] at hmark
      exact ⟨h', hinner, hmark, hmark.judge⟩
  · intro r d hd hreached hscope run hrun
    obtain ⟨outer, rfl⟩ := List.head?_eq_some_iff.mp hrun
    exact hmarked.get?_of_mem_handled hd hreached hscope

/-- Two handlers sit on the package and on the root, one of them with a filter of its own. A part of
the package keeps its records to itself. -/
def sharedChain : Session where
  handlers := [
    { id := 0 },
    { id := 1, filters := [(7, .custom fun r => .ok ⟨r, r.level ≠ Level.error⟩)] },
    { id := 2 }]
  channels := [
    { name := "tracesentry", handlers := [0, 1] },
    { name := root, handlers := [1, 0] },
    { name := "tracesentry.quiet", handlers := [2], propagates := false }]

theorem keepsChannels_sharedChain : sharedChain.KeepsChannels := by
  intro id h hh r v hv
  have hmem := (mem_and_id_of_handler? hh).1
  simp only [sharedChain, List.mem_cons, List.not_mem_nil, or_false] at hmem
  rcases hmem with rfl | rfl | rfl
  · obtain rfl := Except.ok.inj hv
    rfl
  · simp only [Handler.judge, Filter.judgeAll, List.map, Filter.judge, bind, Except.bind] at hv
    split at hv <;> obtain rfl := Except.ok.inj hv <;> rfl
  · obtain rfl := Except.ok.inj hv
    rfl

/-- A warning from a channel. -/
def warningFrom (channel : String) : Record :=
  { template := "stack underflow", channel, level := Level.warning }

/-- Two runs, one inside of the other. Before the inner one a block has failed, and one fails inside
of it. -/
theorem tags_and_restores_sharedChain :
    ∃ t, Inside "tracesentry" sharedChain [.text "inner", .text "outer"] t ∧
      (t.handled (warningFrom "tracesentry.x")).1.map Delivery.handler = [0, 1, 1, 0] ∧
      (∀ d ∈ (t.handled (warningFrom "tracesentry.x")).1,
        d.record.details.get? "run_id" = some (.text "inner")) ∧
      t.handled (warningFrom "tracesentryx") = sharedChain.handled (warningFrom "tracesentryx") ∧
      t.handled (warningFrom "tracesentry.quiet") =
        sharedChain.handled (warningFrom "tracesentry.quiet") ∧
      ((Script.within ⟨.text "failing", .text "tracesentry"⟩ (.fail .badValue)).perform t).session =
        t ∧
      ((Script.within ⟨.text "failing", .text "tracesentry"⟩ (.fail .badValue)).perform t).fault =
        some .badValue := by
  have houter := Inside.outside.opened (.text "outer") (sharedChain.enter_text _ "tracesentry")
  have hfailed := houter.behind (.within ⟨.text "failed", .text "tracesentry"⟩ (.fail .badValue))
  rw [Script.session_perform] at hfailed
  obtain ⟨t, hinside, hhandlers⟩ :
      ∃ t, Inside "tracesentry" sharedChain [.text "inner", .text "outer"] t ∧
        (t.handled (warningFrom "tracesentry.x")).1.map Delivery.handler = [0, 1, 1, 0] :=
    ⟨_, hfailed.opened (.text "inner") (enter_text _ _ "tracesentry"), by decide +kernel⟩
  have hscoped := tags_and_restores hinside
  have hreached : ∀ id ∈ [0, 1, 1, 0], id ∈ sharedChain.reachable "tracesentry" := by
    decide +kernel
  refine ⟨t, hinside, hhandlers, ?run, ?foreign, ?elsewhere, hscoped.restored _ _, ?fault⟩
  case run =>
    intro d hd
    refine hscoped.marked _ d hd (hreached _ ?_) ?_ _ rfl
    · rw [← hhandlers]
      exact List.mem_map_of_mem hd
    · rw [hscoped.channel keepsChannels_sharedChain _ d hd]
      decide +kernel
  case foreign => exact hscoped.foreign keepsChannels_sharedChain _ (by decide +kernel)
  case elsewhere => exact hscoped.elsewhere _ (by decide +kernel)
  case fault =>
    obtain ⟨u, -, hfault, -⟩ := hscoped.passedOn (.text "failing") (.fail .badValue)
    rw [hfault, Script.perform]

end Session

end TraceAudit.Log
