import Mathlib.Data.List.Infix
import TraceAudit.Proofs.Detector.Evidence
import TraceAudit.Proofs.Detector.Frames

/-!
# Detectors with wider windows

Five detectors look around a step no further than a window of the settings says. What a wider window
does depends on what is looked for. A check that comes later than before is found, so fewer calls
are unchecked. A halt, a step of control flow or a pushed address that was found is found again,
since the narrow window is the beginning or the end of the wide one: suspect arithmetic stays
suspect by the same halt, the steps of control flow behind a read are continued, and a constant
target stays one. The first exposed call may only be replaced by an earlier one.

The main statement is `widensTo_of_windowsLe`.
-/

namespace TraceAudit

/-! ### Wider windows -/

/-- The second settings differ from the first in windows alone, none of which is narrower. -/
structure Settings.WindowsLe (s s' : Settings) : Prop where
  others : s' = { s with
    reentrancyFallbackWindow := s'.reentrancyFallbackWindow
    uncheckedCallWindow := s'.uncheckedCallWindow
    originControlWindow := s'.originControlWindow
    delegatecallConstantLookback := s'.delegatecallConstantLookback
    panicArithmeticLookback := s'.panicArithmeticLookback
    arithmeticFallbackWindow := s'.arithmeticFallbackWindow }
  reentrancyFallbackWindow : s.reentrancyFallbackWindow ≤ s'.reentrancyFallbackWindow
  uncheckedCallWindow : s.uncheckedCallWindow ≤ s'.uncheckedCallWindow
  originControlWindow : s.originControlWindow ≤ s'.originControlWindow
  delegatecallConstantLookback : s.delegatecallConstantLookback ≤ s'.delegatecallConstantLookback
  panicArithmeticLookback : s.panicArithmeticLookback ≤ s'.panicArithmeticLookback
  arithmeticFallbackWindow : s.arithmeticFallbackWindow ≤ s'.arithmeticFallbackWindow

theorem Settings.WindowsLe.maxOriginControls {s s' : Settings} (h : s.WindowsLe s') :
    s'.maxOriginControls = s.maxOriginControls := by
  rw [h.others]

theorem Settings.WindowsLe.panicMaxPayloadBytes {s s' : Settings} (h : s.WindowsLe s') :
    s'.panicMaxPayloadBytes = s.panicMaxPayloadBytes := by
  rw [h.others]

/-- The context with other settings. -/
def Context.withSettings (c : Context) (settings : Settings) : Context :=
  { c with settings }

variable {c : Context} {wider : Settings} {steps : List Step} {s t : Step} {w w' : Nat}

theorem Context.Indexed.withSettings (h : c.Indexed) (settings : Settings) :
    (c.withSettings settings).Indexed :=
  h

/-! ### Windows behind a step -/

/-- A step that is found is found in a wider window, too. -/
theorem firstWithin_widen {looked : Bool} {rest : List Step} {test : Step → Bool} (hw : w ≤ w')
    (h : firstWithin looked w rest test = some t) : firstWithin looked w' rest test = some t := by
  cases looked with
  | true => exact (List.take_prefix_take_left hw).find?_eq_some h
  | false => cases h

/-! ### Unchecked calls -/

namespace UncheckedCall

/-- A check in a window is one in a wider window. -/
theorem any_isCheck_widen (hw : w ≤ w') (h : (steps.take w).any isCheck = true) :
    (steps.take w').any isCheck = true := by
  obtain ⟨t, ht, hcheck⟩ := List.any_eq_true.mp h
  exact List.any_eq_true.mpr ⟨t, (List.take_prefix_take_left hw).subset ht, hcheck⟩

/-- With a wider window fewer calls are unchecked. -/
theorem calls_sublist (hw : w ≤ w') (steps : List Step) :
    ((all w' steps).map call).Sublist ((all w steps).map call) := by
  induction steps with
  | nil => exact List.Sublist.refl _
  | cons s rest ih =>
    by_cases hwide : isUnchecked w' s rest = true
    · have hnarrow : isUnchecked w s rest = true := by
        rw [isUnchecked, Bool.and_eq_true, Bool.not_eq_true', ← Bool.not_eq_true] at hwide ⊢
        exact hwide.imp id (mt (any_isCheck_widen hw))
      rw [all_cons_of_isUnchecked hwide, all_cons_of_isUnchecked hnarrow]
      exact ih.cons_cons s
    · rw [all_cons_of_not_isUnchecked hwide, all]
      split
      · exact ih.cons s
      · exact ih

/-- A window that cannot be written cannot be written if it is wider. -/
theorem isWritable_of_le (hw : w ≤ w') (h : Numeral.isWritable w' = true) :
    Numeral.isWritable w = true := by
  rw [Numeral.isWritable_natCast_iff] at h ⊢
  exact Nat.lt_of_le_of_lt hw h

/-- The steps of the calls that are reported as unchecked; none where the window cannot be
written. -/
theorem callSteps_findings (c : Context) (ids : IdSequence) :
    (Detector.uncheckedCall.run c ids).1.findings.map (Finding.evidenceOf · "call_step") =
      if Unwritable c.settings.uncheckedCallWindow c.steps.toList then []
      else ((all c.settings.uncheckedCallWindow c.steps.toList).map call).map
        fun s => Value.int s.index := by
  rw [Detector.findings_uncheckedCall]
  split
  · rfl
  · rw [DetectorInfo.map_findings (h := fun d : Draft => d.evidence.get "call_step")
      (fun _ _ => rfl), List.map_map, List.map_map]
    rfl

/-- **With wider windows fewer calls are reported**, none where the window cannot be written. -/
theorem callSteps_sublist (hw : c.settings.WindowsLe wider) (ids ids' : IdSequence) :
    ((Detector.uncheckedCall.run (c.withSettings wider) ids').1.findings.map
      (Finding.evidenceOf · "call_step")).Sublist
    ((Detector.uncheckedCall.run c ids).1.findings.map (Finding.evidenceOf · "call_step")) := by
  have hcalls := calls_sublist hw.uncheckedCallWindow c.steps.toList
  rw [callSteps_findings, callSteps_findings]
  change List.Sublist (if Unwritable wider.uncheckedCallWindow c.steps.toList then []
    else ((all wider.uncheckedCallWindow c.steps.toList).map call).map
      fun s => Value.int s.index) _
  split
  · exact List.nil_sublist _
  · next hwide =>
    split
    · next hnarrow =>
      -- the wide window cannot be written either, so it has nothing to be written for
      have hnone : all wider.uncheckedCallWindow c.steps.toList = [] := by
        by_contra hne
        exact hwide ⟨Bool.eq_false_iff.mpr fun h => Bool.eq_false_iff.mp hnarrow.1
          (isWritable_of_le hw.uncheckedCallWindow h), hne⟩
      rw [hnone]
      exact List.nil_sublist _
    · exact hcalls.map _

end UncheckedCall

/-! ### Halts behind arithmetic -/

namespace SuspectArithmetic

/-- With a wider window more arithmetic is suspect, and what was is so by the same halt. -/
theorem all_sublist (hw : w ≤ w') (steps : List Step) : (all w steps).Sublist (all w' steps) := by
  induction steps with
  | nil => exact List.Sublist.refl _
  | cons s rest ih =>
    rw [all_cons, all_cons]
    refine List.Sublist.append ?_ ih
    cases hfound : firstWithin s.isArithmetic w rest Step.isAbnormalHalt with
    | none => exact List.nil_sublist _
    | some halt =>
      rw [firstWithin_widen hw hfound]

/-- Each step is suspect once at most. -/
theorem arithmetic_sublist (w : Nat) (steps : List Step) :
    ((all w steps).map arithmetic).Sublist steps := by
  induction steps with
  | nil => exact List.Sublist.refl _
  | cons s rest ih =>
    rw [all_cons]
    cases firstWithin s.isArithmetic w rest Step.isAbnormalHalt with
    | none => exact ih.cons s
    | some halt => exact ih.cons_cons s

/-- Arithmetic that is suspect with both windows is so by the same halt. -/
theorem eq_of_mem_all (hw : w ≤ w') (hsorted : steps.Pairwise fun s t => s.index < t.index)
    {a a' : SuspectArithmetic} (ha : a ∈ all w steps) (ha' : a' ∈ all w' steps)
    (hindex : a.arithmetic.index = a'.arithmetic.index) : a = a' := by
  have hindices : ((all w' steps).map fun a => a.arithmetic.index).Nodup := by
    have hnodup : (steps.map Step.index).Nodup :=
      List.pairwise_map.mpr (hsorted.imp fun h => Int.ne_of_lt h)
    have hsublist := (arithmetic_sublist w' steps).map Step.index
    rw [List.map_map] at hsublist
    exact hnodup.sublist hsublist
  exact List.inj_on_of_nodup_map hindices ((all_sublist hw steps).subset ha) ha' hindex

/-- **Findings on suspect arithmetic are kept**, and there is no other on the same step. -/
theorem findings_kept (hw : w ≤ w') (hsorted : steps.Pairwise fun s t => s.index < t.index)
    (ids ids' : IdSequence) :
    (((Detector.arithmetic.info.findings ids ((all w steps).map draft)).map
      Finding.unnumbered).Sublist
      ((Detector.arithmetic.info.findings ids' ((all w' steps).map draft)).map
        Finding.unnumbered)) ∧
    ∀ f ∈ Detector.arithmetic.info.findings ids ((all w steps).map draft),
      ∀ f' ∈ Detector.arithmetic.info.findings ids' ((all w' steps).map draft),
        f.evidenceOf "arithmetic_step" = f'.evidenceOf "arithmetic_step" →
          f.unnumbered = f'.unnumbered := by
  constructor
  · rw [DetectorInfo.map_unnumbered_findings, DetectorInfo.map_unnumbered_findings]
    exact ((all_sublist hw steps).map draft).map _
  · intro f hf f' hf' hstep
    obtain ⟨_, hdraft, id, rfl⟩ := Detector.exists_finding_of_mem_findings hf
    obtain ⟨_, hdraft', id', rfl⟩ := Detector.exists_finding_of_mem_findings hf'
    obtain ⟨a, ha, rfl⟩ := List.mem_map.mp hdraft
    obtain ⟨a', ha', rfl⟩ := List.mem_map.mp hdraft'
    rw [eq_of_mem_all hw hsorted ha ha' (Value.int.inj hstep)]
    rfl

end SuspectArithmetic

/-! ### Reentrancy in a flat trace -/

namespace FlatReentrancy

/-- With a wider window the same call is exposed by the same write, or an earlier one is. -/
theorem exists_first?_widen (hw : w ≤ w') (hsorted : steps.Pairwise fun s t => s.index < t.index)
    {r : FlatReentrancy} (hr : first? w steps = some r) :
    ∃ r', first? w' steps = some r' ∧ (r' = r ∨ r'.call.index < r.call.index) := by
  induction steps with
  | nil => cases hr
  | cons s rest ih =>
    obtain ⟨hfirst, hsorted⟩ := List.pairwise_cons.mp hsorted
    rw [first?_cons] at hr ⊢
    cases hfound : firstWithin s.isExternalCall w rest (exposes s) with
    | some store =>
      rw [hfound] at hr
      rw [firstWithin_widen hw hfound]
      exact ⟨r, hr, .inl rfl⟩
    | none =>
      rw [hfound] at hr
      change first? w rest = some r at hr
      cases firstWithin s.isExternalCall w' rest (exposes s) with
      | some store => exact ⟨⟨s, store⟩, rfl, .inr (hfirst _ (mem_steps_of_first? hr).1)⟩
      | none => exact ih hsorted hr

theorem exists_found_widen (hw : c.settings.WindowsLe wider) (hindexed : c.Indexed)
    {r : FlatReentrancy} (hr : found c = some r) :
    ∃ r', found (c.withSettings wider) = some r' ∧ (r' = r ∨ r'.call.index < r.call.index) := by
  rw [found] at hr ⊢
  change ∃ r', (if c.hasFrames then none
    else first? wider.reentrancyFallbackWindow c.steps.toList) = some r' ∧ _
  by_cases hframes : c.hasFrames
  · rw [if_pos hframes] at hr
    cases hr
  · rw [if_neg hframes] at hr ⊢
    exact exists_first?_widen hw.reentrancyFallbackWindow hindexed.pairwise_index hr

/-- Two findings on calls that a write follows: the latter is the former but for its number, or it
is on an earlier call. -/
def NoLater (f f' : Finding) : Prop :=
  f'.unnumbered = f.unnumbered ∨ ∃ n n', n' < n ∧ f.evidenceOf "call_step" = .int n ∧
    f'.evidenceOf "call_step" = .int n'

theorem noLater_finding {r r' : FlatReentrancy} (h : r' = r ∨ r'.call.index < r.call.index)
    (id id' : String) : NoLater (info.finding id r.draft) (info.finding id' r'.draft) := by
  rcases h with rfl | hlt
  · exact .inl rfl
  · exact .inr ⟨_, _, hlt, rfl, rfl⟩

/-- **A finding is kept or replaced by one on an earlier call.** -/
theorem exists_noLater {c c' : Context} {found found' : Option FlatReentrancy}
    (h : Detector.flatReentrancy.Reports c draft found.toList)
    (h' : Detector.flatReentrancy.Reports c' draft found'.toList)
    (hfound : ∀ r, found = some r →
      ∃ r', found' = some r' ∧ (r' = r ∨ r'.call.index < r.call.index))
    (ids ids' : IdSequence) :
    ∃ fs fs', (Detector.flatReentrancy.run c ids).1.outcome = .ok fs ∧
      (Detector.flatReentrancy.run c' ids').1.outcome = .ok fs' ∧
      ∀ f ∈ fs, ∃ f', fs' = [f'] ∧ NoLater f f' := by
  refine ⟨_, _, h ids, h' ids', fun f hf => ?_⟩
  obtain ⟨_, hdraft, id, rfl⟩ := Detector.exists_finding_of_mem_findings hf
  obtain ⟨r, hr, rfl⟩ := List.mem_map.mp hdraft
  obtain ⟨r', rfl, hkept⟩ := hfound r (Option.mem_toList.mp hr)
  exact ⟨_, rfl, noLater_finding hkept id _⟩

end FlatReentrancy

/-! ### Reads of the transaction's sender -/

namespace OriginRead

/-- A read that is found with narrow windows and one that is found with wide ones: they are the same
read, and what follows the former is continued by what follows the latter. -/
structure WidensTo (r r' : OriginRead) : Prop where
  read : r.read = r'.read
  frame : r.frame = r'.frame
  controls : r.controls <+: r'.controls
  severity : r.severity.rank ≤ r'.severity.rank

/-- Two findings on one read: what follows it for the former is continued for the latter, which is
as severe or more so. -/
structure MoreControls (f f' : Finding) : Prop where
  step : ∃ n, f.evidenceOf "step" = .int n ∧ f'.evidenceOf "step" = .int n
  controls : ∃ ops ops' : List Step, ops <+: ops' ∧
    f.evidenceOf "nearby_controls" = .list (ops.map Step.toReference) ∧
    f'.evidenceOf "nearby_controls" = .list (ops'.map Step.toReference)
  severity : f.severity.rank ≤ f'.severity.rank

theorem WidensTo.moreControls {r r' : OriginRead} (h : r.WidensTo r') (id id' : String) :
    MoreControls (info.finding id r.draft) (info.finding id' r'.draft) where
  step := ⟨_, rfl, congrArg (fun s : Step => Value.int s.index) h.read.symm⟩
  controls := ⟨_, _, h.controls, rfl, rfl⟩
  severity := h.severity

theorem controlsNear_widen (hw : c.settings.WindowsLe wider) (origin : Int) :
    controlsNear c origin <+: controlsNear (c.withSettings wider) origin := by
  have hstop : min (origin + 1 + c.settings.originControlWindow) (c.steps.size : Int) ≤
      min (origin + 1 + wider.originControlWindow) c.steps.size := by
    have hwindow := hw.originControlWindow
    omega
  have hlookahead : lookahead c origin <+: lookahead (c.withSettings wider) origin :=
    (Context.positions_widen hstop).filter _
  exact (hlookahead.filterMap c.step?).filter isControl

theorem rank_severity_le {r r' : OriginRead} (h : r.controls <+: r'.controls) :
    r.severity.rank ≤ r'.severity.rank := by
  rw [severity, severity]
  cases hcontrols : r.controls with
  | nil =>
    cases r'.controls with
    | nil => exact Nat.le_refl _
    | cons t controls => exact Nat.le_succ 1
  | cons t controls =>
    obtain ⟨more, hmore⟩ := h
    rw [← hmore, hcontrols]
    exact Nat.le_refl _

theorem atStep_widensTo (hw : c.settings.WindowsLe wider) (s : Step) :
    (atStep c s).WidensTo (atStep (c.withSettings wider) s) := by
  have hcontrols : (atStep c s).controls <+: (atStep (c.withSettings wider) s).controls := by
    change (controlsNear c s.index).take c.settings.maxOriginControls <+:
      (controlsNear (c.withSettings wider) s.index).take wider.maxOriginControls
    rw [hw.maxOriginControls]
    exact (controlsNear_widen hw s.index).take _
  exact ⟨rfl, rfl, hcontrols, rank_severity_le hcontrols⟩

end OriginRead

/-! ### Delegated calls -/

namespace DelegatedCall

/-- A delegated call that is found with narrow windows and one that is found with wide ones: they
are the same call, and a constant target is one still. -/
structure WidensTo (d d' : DelegatedCall) : Prop where
  call : d.call = d'.call
  frame : d.frame = d'.frame
  target : d.target = d'.target
  constant : d.constant = true → d'.constant = true

theorem WidensTo.sameCall {d d' : DelegatedCall} (h : d.WidensTo d') (id id' : String) :
    SameCall (info.finding id d.draft) (info.finding id' d'.draft) :=
  CoveredBy.sameCall ⟨h.call, h.target, h.constant⟩ id id'

theorem mem_lookback_widen (hw : c.settings.WindowsLe wider) {call i : Int}
    (hcall : call < c.steps.size) (hi : i ∈ lookback c call) :
    i ∈ lookback (c.withSettings wider) call := by
  obtain ⟨hstart, hstop⟩ := Context.bounds_of_mem_positions hi
  have hwindow := hw.delegatecallConstantLookback
  have hwider : (c.withSettings wider).settings.delegatecallConstantLookback =
      wider.delegatecallConstantLookback := rfl
  have hsize : (c.withSettings wider).steps.size = c.steps.size := rfl
  exact Context.mem_positions (by omega) hstop (by omega)

theorem isPushed_widen (hw : c.settings.WindowsLe wider) {call : Int} (hcall : call < c.steps.size)
    {target : String} (h : isPushed c target call = true) :
    isPushed (c.withSettings wider) target call = true := by
  obtain ⟨t, ht, hpush⟩ := List.any_eq_true.mp h
  obtain ⟨i, hi, hstep⟩ := List.mem_filterMap.mp ht
  exact List.any_eq_true.mpr
    ⟨t, List.mem_filterMap.mpr ⟨i, mem_lookback_widen hw hcall hi, hstep⟩, hpush⟩

theorem atStep_widensTo (hw : c.settings.WindowsLe wider) (hindexed : c.Indexed)
    (hs : s ∈ c.steps.toList) : (atStep c s).WidensTo (atStep (c.withSettings wider) s) where
  call := rfl
  frame := rfl
  target := rfl
  constant h := by
    obtain ⟨target, htarget, hpushed⟩ := (Option.any_eq_true _ _).mp h
    have hcall := (hindexed.index_bounds hs).2
    exact (Option.any_eq_true _ _).mpr ⟨target, htarget, isPushed_widen hw hcall hpushed⟩

end DelegatedCall

/-! ### Panics -/

/-- The same steps are panics. -/
theorem ArithmeticPanic.map_revert_all_withSettings (hw : c.settings.WindowsLe wider) :
    (all (c.withSettings wider)).map revert = (all c).map revert := by
  have hpanics (s : Step) : Panics (c.withSettings wider) s ↔ Panics c s := by
    change s.panic? wider.panicMaxPayloadBytes = _ ↔ _
    rw [hw.panicMaxPayloadBytes]
    exact Iff.rfl
  rw [all, all, List.map_map, List.map_map]
  change List.map id _ = List.map id _
  rw [List.map_id, List.map_id]
  exact List.filter_congr fun s _ => by simp only [hpanics]

/-! ### The comparison -/

/-- **How the reports on a context and on the same context with wider windows compare.** Each of the
detectors with a window returns on both, unless the window for unchecked calls cannot be written. -/
structure Context.WidensTo (c c' : Context) : Prop where
  /-- Fewer calls are unchecked. -/
  uncheckedCall :
    ¬UncheckedCall.Unwritable c.settings.uncheckedCallWindow c.steps.toList →
    ¬UncheckedCall.Unwritable c'.settings.uncheckedCallWindow c'.steps.toList →
    ∃ calls calls',
      Detector.uncheckedCall.Reports c UncheckedCall.draft calls ∧
      Detector.uncheckedCall.Reports c' UncheckedCall.draft calls' ∧
      (calls'.map UncheckedCall.call).Sublist (calls.map UncheckedCall.call)
  /-- Fewer calls are reported, also where the window cannot be written. -/
  uncheckedCall_findings : ∀ ids ids',
    ((Detector.uncheckedCall.run c' ids').1.findings.map
      (Finding.evidenceOf · "call_step")).Sublist
    ((Detector.uncheckedCall.run c ids).1.findings.map (Finding.evidenceOf · "call_step"))
  /-- Panics are reported if there are any, and then of the same reverts. -/
  panics : ArithmeticPanic.all c ≠ [] → ∃ panics panics',
    Detector.arithmetic.Reports c ArithmeticPanic.draft panics ∧
    Detector.arithmetic.Reports c' ArithmeticPanic.draft panics' ∧
    panics.map ArithmeticPanic.revert = panics'.map ArithmeticPanic.revert
  /-- Otherwise more arithmetic is suspect, and what was is so by the same halt. -/
  suspects : ArithmeticPanic.all c = [] → ∃ suspects suspects',
    Detector.arithmetic.Reports c SuspectArithmetic.draft suspects ∧
    Detector.arithmetic.Reports c' SuspectArithmetic.draft suspects' ∧
    suspects.Sublist suspects' ∧
    ∀ a ∈ suspects, ∀ a' ∈ suspects', a.arithmetic.index = a'.arithmetic.index → a = a'
  /-- The findings are kept but for their numbers, and there is no other on the same step. -/
  suspects_findings : ArithmeticPanic.all c = [] → ∀ ids ids', ∃ fs fs',
    (Detector.arithmetic.run c ids).1.outcome = .ok fs ∧
    (Detector.arithmetic.run c' ids').1.outcome = .ok fs' ∧
    (fs.map Finding.unnumbered).Sublist (fs'.map Finding.unnumbered) ∧
    ∀ f ∈ fs, ∀ f' ∈ fs', f.evidenceOf "arithmetic_step" = f'.evidenceOf "arithmetic_step" →
      f.unnumbered = f'.unnumbered
  /-- The same steps read the sender of the transaction, with more of what follows. -/
  originRead : ∃ reads reads',
    Detector.originRead.Reports c OriginRead.draft reads ∧
    Detector.originRead.Reports c' OriginRead.draft reads' ∧
    List.Forall₂ OriginRead.WidensTo reads reads'
  /-- The findings are on the same reads. -/
  pairs_originRead : Detector.originRead.Pairs c c' OriginRead.MoreControls
  /-- The same calls are delegated, and no constant target is lost. -/
  delegatecallTarget : ∃ calls calls',
    Detector.delegatecallTarget.Reports c DelegatedCall.draft calls ∧
    Detector.delegatecallTarget.Reports c' DelegatedCall.draft calls' ∧
    List.Forall₂ DelegatedCall.WidensTo calls calls'
  /-- The findings are on the same calls. -/
  pairs_delegatecallTarget : Detector.delegatecallTarget.Pairs c c' DelegatedCall.SameCall
  /-- An exposed call is still reported, unless an earlier one is. -/
  flatReentrancy : ∃ found found' : Option FlatReentrancy,
    Detector.flatReentrancy.Reports c FlatReentrancy.draft found.toList ∧
    Detector.flatReentrancy.Reports c' FlatReentrancy.draft found'.toList ∧
    ∀ r, found = some r → ∃ r', found' = some r' ∧ (r' = r ∨ r'.call.index < r.call.index)
  /-- The finding is kept but for its number, or it is on an earlier call. -/
  flatReentrancy_findings : ∀ ids ids', ∃ fs fs',
    (Detector.flatReentrancy.run c ids).1.outcome = .ok fs ∧
    (Detector.flatReentrancy.run c' ids').1.outcome = .ok fs' ∧
    ∀ f ∈ fs, ∃ f', fs' = [f'] ∧ FlatReentrancy.NoLater f f'

/-- **Wider windows lose no hit but unchecked calls.** On a trace whose steps carry their positions,
with whatever frames, the reports with wider windows compare to those with narrow ones as
`Context.WidensTo` says. -/
theorem widensTo_of_windowsLe (c : Context) (wider : Settings) (hindexed : c.Indexed)
    (hw : c.settings.WindowsLe wider) : c.WidensTo (c.withSettings wider) := by
  have hindexed' := hindexed.withSettings wider
  have hreverts := ArithmeticPanic.map_revert_all_withSettings hw
  have hnone_iff : ArithmeticPanic.all (c.withSettings wider) = [] ↔
      ArithmeticPanic.all c = [] := by
    rw [← List.map_eq_nil_iff, hreverts, List.map_eq_nil_iff]
  have hsuspects := fun hnone : ArithmeticPanic.all c = [] =>
    And.intro (Detector.arithmetic_reports_suspects hindexed hnone)
      (Detector.arithmetic_reports_suspects hindexed' (hnone_iff.mpr hnone))
  have hreads : List.Forall₂ OriginRead.WidensTo (OriginRead.all c)
      (OriginRead.all (c.withSettings wider)) :=
    forall₂_map_map fun s _ => OriginRead.atStep_widensTo hw s
  have hcalls : List.Forall₂ DelegatedCall.WidensTo (DelegatedCall.all c)
      (DelegatedCall.all (c.withSettings wider)) :=
    forall₂_map_map fun s hs =>
      DelegatedCall.atStep_widensTo hw hindexed (List.mem_filter.mp hs).1
  have hfound := fun r => FlatReentrancy.exists_found_widen (r := r) hw hindexed
  exact {
    uncheckedCall := fun hwritable hwritable' => ⟨_, _,
      Detector.uncheckedCall_reports hwritable, Detector.uncheckedCall_reports hwritable',
      UncheckedCall.calls_sublist hw.uncheckedCallWindow _⟩
    uncheckedCall_findings := UncheckedCall.callSteps_sublist hw
    panics := fun hsome => ⟨_, _, Detector.arithmetic_reports_panics hindexed hsome,
      Detector.arithmetic_reports_panics hindexed' (mt hnone_iff.mp hsome), hreverts.symm⟩
    suspects := fun hnone => ⟨_, _, (hsuspects hnone).1, (hsuspects hnone).2,
      SuspectArithmetic.all_sublist hw.arithmeticFallbackWindow _, fun a ha a' ha' =>
        SuspectArithmetic.eq_of_mem_all hw.arithmeticFallbackWindow hindexed.pairwise_index ha ha'⟩
    suspects_findings := fun hnone ids ids' => ⟨_, _, (hsuspects hnone).1 ids,
      (hsuspects hnone).2 ids', SuspectArithmetic.findings_kept hw.arithmeticFallbackWindow
        hindexed.pairwise_index ids ids'⟩
    originRead := ⟨_, _, Detector.originRead_reports hindexed,
      Detector.originRead_reports hindexed', hreads⟩
    pairs_originRead := Detector.pairs_of_reports (Detector.originRead_reports hindexed)
      (Detector.originRead_reports hindexed') hreads fun _ _ hwidens => hwidens.moreControls
    delegatecallTarget := ⟨_, _, Detector.delegatecallTarget_reports hindexed,
      Detector.delegatecallTarget_reports hindexed', hcalls⟩
    pairs_delegatecallTarget := Detector.pairs_of_reports
      (Detector.delegatecallTarget_reports hindexed)
      (Detector.delegatecallTarget_reports hindexed') hcalls fun _ _ hwidens => hwidens.sameCall
    flatReentrancy := ⟨_, _, Detector.flatReentrancy_reports c,
      Detector.flatReentrancy_reports _, hfound⟩
    flatReentrancy_findings := FlatReentrancy.exists_noLater (Detector.flatReentrancy_reports c)
      (Detector.flatReentrancy_reports _) hfound }

/-- A call that is checked two steps later, arithmetic two steps before a halt, a read of the sender
with two jumps behind it, an address pushed two steps before the delegated call to it, and a late
write. -/
def sparseTrace : List Step := [
  ⟨0, 0, "CALL", 900, 100, 1, [], []⟩,
  ⟨1, 1, "POP", 800, 2, 1, [], []⟩,
  ⟨2, 2, "ISZERO", 790, 3, 1, [], []⟩,
  ⟨3, 3, "ADD", 780, 3, 1, [], []⟩,
  ⟨4, 4, "POP", 770, 2, 1, [], []⟩,
  ⟨5, 5, "INVALID", 760, 0, 1, [], []⟩,
  ⟨6, 6, "ORIGIN", 750, 2, 1, [], []⟩,
  ⟨7, 7, "JUMPI", 740, 10, 1, [], []⟩,
  ⟨8, 8, "JUMPI", 730, 10, 1, [], []⟩,
  ⟨9, 9, "PUSH20", 720, 3, 1, [], []⟩,
  ⟨10, 10, "GAS", 710, 2, 1, ["0xdead"], []⟩,
  ⟨11, 11, "DELEGATECALL", 700, 100, 1, ["0x64", "0xdead"], []⟩,
  ⟨12, 12, "SSTORE", 690, 100, 1, [], []⟩]

/-- Settings in which every window covers so many steps. -/
def Settings.ofWindow (window : Nat) : Settings where
  reentrancyFallbackWindow := window
  uncheckedCallWindow := window
  originControlWindow := window
  delegatecallConstantLookback := window
  panicArithmeticLookback := window
  arithmeticFallbackWindow := window

theorem Settings.windowsLe_ofWindow (h : w ≤ w') : (ofWindow w).WindowsLe (ofWindow w') :=
  ⟨rfl, h, h, h, h, h, h⟩

/-- What the windows of a context decide: the calls that are unchecked, suspect arithmetic, how many
steps of control flow follow the reads, which targets are constants, and the exposed call. -/
def Context.aroundWindows (c : Context) :
    List Int × List Int × List Nat × List Bool × Option Int :=
  ((UncheckedCall.all c.settings.uncheckedCallWindow c.steps.toList).map fun u => u.call.index,
    (SuspectArithmetic.all c.settings.arithmeticFallbackWindow c.steps.toList).map fun a =>
      a.arithmetic.index,
    (OriginRead.all c).map fun r => r.controls.length,
    (DelegatedCall.all c).map DelegatedCall.constant,
    (FlatReentrancy.found c).map fun r => r.call.index)

theorem widensTo_of_windowsLe_sparseTrace :
    (Settings.ofWindow 1).WindowsLe (Settings.ofWindow 12) ∧
    (Context.mk sparseTrace.toArray none (Settings.ofWindow 1)).aroundWindows =
      ([0, 11], [], [1], [false], some 11) ∧
    (Context.mk sparseTrace.toArray none (Settings.ofWindow 12)).aroundWindows =
      ([11], [3], [2], [true], some 0) ∧
    (Context.mk sparseTrace.toArray none (Settings.ofWindow 1)).WidensTo
      (Context.mk sparseTrace.toArray none (Settings.ofWindow 12)) := by
  have hwindows : (Settings.ofWindow 1).WindowsLe (Settings.ofWindow 12) :=
    Settings.windowsLe_ofWindow (by decide)
  have hingest : Step.ingest .bottomFirst (.entries (sparseTrace.map .step)) =
      .ok sparseTrace := rfl
  refine ⟨hwindows, by decide +kernel, by decide +kernel, ?_⟩
  exact widensTo_of_windowsLe ⟨sparseTrace.toArray, none, Settings.ofWindow 1⟩
    (Settings.ofWindow 12) (Context.indexed_of_ingest hingest none _) hwindows

end TraceAudit
