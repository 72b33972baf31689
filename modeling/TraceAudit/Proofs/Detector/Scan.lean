import Mathlib.Data.List.Basic
import TraceAudit.Detector.Basic

/-!
# Scans

A scan is what a program of a detector comes to, apart from numbers: the notes it leaves, the drafts
it writes up, and the fault that ends it, if one does. `Follows p i s` says that the program `p`
follows the scan `s`: from any ledger it leaves the notes, makes the drafts findings with the next
identifiers, one for each draft and in their order, and returns these findings unless the scan has a
fault.

Each way of building a program has a way of building scans beside it: programs one after the other
(`Follows.append`, `Follows.flatMapM`), a draft that is made a finding (`follows_make`), hits that
are written up one by one (`follows_makeAll`), a look at each element with what stands behind it
(`Follows.alongTails_cons`). So whatever loops a detector is made of, each identifier that it draws
is in what it returns, once, and in the order in which the identifiers were drawn; no scan has an
identifier to do that with.
-/

namespace TraceAudit

/-- What a detector comes to: notes and drafts, and the fault that ends it. -/
structure Scan where
  notes : List Note := []
  drafts : List Draft := []
  fault : Option Fault := none
deriving Inhabited

namespace Scan

variable {α : Type}

/-- A scan of drafts alone. -/
def ofDrafts (drafts : List Draft) : Scan :=
  { drafts }

/-- Go on with another scan, unless a fault ended this one. -/
def andThen (s t : Scan) : Scan :=
  if s.fault.isSome then s else ⟨s.notes ++ t.notes, s.drafts ++ t.drafts, t.fault⟩

/-- Go on with another scan if this one wrote up nothing. -/
def orElse (s t : Scan) : Scan :=
  if s.drafts.isEmpty then s.andThen t else s

/-- The scans of all elements of a list, one after the other. -/
def forEach (as : List α) (scan : α → Scan) : Scan :=
  as.foldr (fun a rest => (scan a).andThen rest) {}

/-- The scan of hits that are written up by `draft`. -/
def ofHits (draft : α → Draft) : Except Fault (List α) → Scan
  | .ok hits => ofDrafts (hits.map draft)
  | .error e => { fault := some e }

theorem andThen_of_fault_eq_none {s : Scan} (h : s.fault = none) (t : Scan) :
    s.andThen t = ⟨s.notes ++ t.notes, s.drafts ++ t.drafts, t.fault⟩ := by
  rw [andThen, h]
  rfl

theorem andThen_of_fault_eq_some {s : Scan} {e : Fault} (h : s.fault = some e) (t : Scan) :
    s.andThen t = s := by
  rw [andThen, h]
  rfl

theorem forEach_cons (a : α) (as : List α) (scan : α → Scan) :
    forEach (a :: as) scan = (scan a).andThen (forEach as scan) :=
  rfl

theorem forEach_congr {as : List α} {scan scan' : α → Scan} (h : ∀ a ∈ as, scan a = scan' a) :
    forEach as scan = forEach as scan' := by
  induction as with
  | nil => rfl
  | cons a as ih =>
    rw [forEach_cons, forEach_cons, h a List.mem_cons_self,
      ih fun b hb => h b (List.mem_cons_of_mem a hb)]

/-- Scans of which none comes to a fault are put together. -/
theorem forEach_eq {as : List α} {scan : α → Scan} (h : ∀ a ∈ as, (scan a).fault = none) :
    forEach as scan =
      ⟨as.flatMap fun a => (scan a).notes, as.flatMap fun a => (scan a).drafts, none⟩ := by
  induction as with
  | nil => rfl
  | cons a as ih =>
    rw [forEach_cons, ih fun b hb => h b (List.mem_cons_of_mem a hb),
      andThen_of_fault_eq_none (h a List.mem_cons_self), List.flatMap_cons, List.flatMap_cons]

/-- Scans of drafts alone are a scan of drafts alone. -/
theorem forEach_ofDrafts (as : List α) (drafts : α → List Draft) :
    (forEach as fun a => ofDrafts (drafts a)) = ofDrafts (as.flatMap drafts) := by
  rw [forEach_eq fun _ _ => rfl]
  exact congrArg (Scan.mk · _ none) (List.flatMap_eq_nil_iff.mpr fun _ _ => rfl)

theorem flatMap_ite_singleton {β : Type} (p : α → Prop) [DecidablePred p] (g : α → β)
    (as : List α) : (as.flatMap fun a => if p a then [g a] else []) = (as.filter p).map g := by
  induction as with
  | nil => rfl
  | cons a as ih =>
    rw [List.flatMap_cons, ih, List.filter_cons]
    by_cases h : p a <;> simp [h]

/-- Scans of elements, some of which are a hit, are a scan of the hits. -/
theorem forEach_ofHits {β : Type} {draft : β → Draft} {hits : α → Except Fault (List β)}
    {p : α → Prop} [DecidablePred p] {g : α → β} {as : List α}
    (h : ∀ a ∈ as, hits a = .ok (if p a then [g a] else [])) :
    (forEach as fun a => ofHits draft (hits a)) = ofDrafts (((as.filter p).map g).map draft) := by
  have hscan : ∀ a ∈ as, ofHits draft (hits a) = ofDrafts ((if p a then [g a] else []).map draft) :=
    fun a ha => by rw [h a ha]; rfl
  have hall : (forEach as fun a => ofHits draft (hits a)) =
      forEach as fun a => ofDrafts ((if p a then [g a] else []).map draft) :=
    forEach_congr hscan
  rw [hall, forEach_ofDrafts, ← flatMap_ite_singleton, List.map_flatMap]

/-- Scans of images agree with those of the elements if the single ones do. -/
theorem forEach_map {as : List α} {f : α → α} {scan scan' : α → Scan}
    (h : ∀ a ∈ as, scan' (f a) = scan a) : forEach (as.map f) scan' = forEach as scan := by
  rw [forEach, List.foldr_map]
  exact forEach_congr h

/-- What does not show in the write-up does not show in the scan. -/
theorem ofHits_map {draft : α → Draft} {f : α → α} (h : ∀ a, draft (f a) = draft a)
    (hits : Except Fault (List α)) : ofHits draft (hits.map (List.map f)) = ofHits draft hits := by
  cases hits with
  | error fault => rfl
  | ok found =>
    have hdraft : draft ∘ f = draft := funext h
    change ofDrafts ((found.map f).map draft) = ofDrafts (found.map draft)
    rw [List.map_map, hdraft]

end Scan

/-! ### Numbered drafts -/

namespace IdSequence

theorem skip_skip (s : IdSequence) (m n : Nat) : (s.skip m).skip n = s.skip (m + n) := by
  rw [skip, skip, skip, Nat.add_assoc]

end IdSequence

namespace DetectorInfo

variable (i : DetectorInfo) (ids : IdSequence)

/-- Number drafts in order. -/
def findings (drafts : List Draft) : List Finding :=
  List.zipWith i.finding (ids.draw drafts.length) drafts

/-- Drafts are numbered in order: those behind others start where these stopped. -/
theorem findings_append (ds es : List Draft) :
    i.findings ids (ds ++ es) = i.findings ids ds ++ i.findings (ids.skip ds.length) es := by
  rw [findings, List.length_append, IdSequence.draw_add,
    List.zipWith_append (IdSequence.length_draw ids ds.length)]
  rfl

theorem findings_cons (d : Draft) (ds : List Draft) :
    i.findings ids (d :: ds) = i.finding ids.next.1 d :: i.findings (ids.skip 1) ds :=
  findings_append i ids [d] ds

theorem isEmpty_findings (ds : List Draft) : (i.findings ids ds).isEmpty = ds.isEmpty := by
  cases ds with
  | nil => rfl
  | cons d ds => rw [findings_cons, List.isEmpty_cons, List.isEmpty_cons]

end DetectorInfo

/-- What a program returns that follows a scan: the drafts as findings, or the fault. -/
def Scan.outcome (s : Scan) (i : DetectorInfo) (ids : IdSequence) : Except Fault (List Finding) :=
  match s.fault with
  | some e => .error e
  | none => .ok (i.findings ids s.drafts)

/-! ### Programs -/

namespace DetectM

variable {α β : Type} {p : DetectM α} {f : α → DetectM β} {l l' : Ledger}

theorem runOn_pure (a : α) (l : Ledger) : (pure a : DetectM α).runOn l = (.ok a, l) :=
  rfl

/-- A program goes on with what it got, from the ledger that is left. -/
theorem runOn_bind_of_ok {a : α} (h : p.runOn l = (.ok a, l')) :
    (p >>= f).runOn l = (f a).runOn l' := by
  change (ExceptT.bindCont f (p.runOn l).1).run (p.runOn l).2 = _
  rw [h]
  rfl

/-- A program does not go on behind a fault. -/
theorem runOn_bind_of_error {e : Fault} (h : p.runOn l = (.error e, l')) :
    (p >>= f).runOn l = (.error e, l') := by
  change (ExceptT.bindCont f (p.runOn l).1).run (p.runOn l).2 = _
  rw [h]
  rfl

/-- A program follows a scan: its findings are the numbered drafts, each of them has drawn its
identifier, and nothing else has. -/
def Follows (p : DetectM (List Finding)) (i : DetectorInfo) (s : Scan) : Prop :=
  ∀ l, p.runOn l = (s.outcome i l.ids, ⟨l.ids.skip s.drafts.length, l.notes ++ s.notes⟩)

variable {i : DetectorInfo} {p q : DetectM (List Finding)} {s t : Scan}

theorem follows_nil : Follows (pure []) i {} := by
  intro l
  rw [runOn_pure]
  exact congrArg (Prod.mk _ <| Ledger.mk l.ids ·) (List.append_nil l.notes).symm

theorem follows_throw (e : Fault) : Follows (throw e) i { fault := some e } := by
  intro l
  change (Except.error e, l) = _
  exact congrArg (Prod.mk _ <| Ledger.mk l.ids ·) (List.append_nil l.notes).symm

/-- Programs one after the other follow scans one after the other. -/
theorem Follows.append (hp : Follows p i s) (hq : Follows q i t) :
    Follows (do let found ← p; let more ← q; return found ++ more) i (s.andThen t) := by
  intro l
  cases hfault : s.fault with
  | some e =>
    have hrun := hp l
    rw [Scan.outcome, hfault] at hrun
    rw [Scan.andThen_of_fault_eq_some hfault, runOn_bind_of_error hrun, Scan.outcome, hfault]
  | none =>
    have hrun := hp l
    rw [Scan.outcome, hfault] at hrun
    have hmore := hq ⟨l.ids.skip s.drafts.length, l.notes ++ s.notes⟩
    rw [Scan.andThen_of_fault_eq_none hfault, runOn_bind_of_ok hrun, List.length_append,
      ← IdSequence.skip_skip, ← List.append_assoc]
    cases hend : t.fault with
    | some e =>
      rw [Scan.outcome, hend] at hmore
      rw [runOn_bind_of_error hmore, Scan.outcome]
    | none =>
      rw [Scan.outcome, hend] at hmore
      rw [runOn_bind_of_ok hmore, runOn_pure, Scan.outcome, DetectorInfo.findings_append]

/-- A program that is run if another one found nothing follows the scan that does so. -/
theorem Follows.orElse (hp : Follows p i s) (hq : Follows q i t) :
    Follows (do let found ← p; if found.isEmpty then q else return found) i (s.orElse t) := by
  intro l
  have hrun := hp l
  cases hfault : s.fault with
  | some e =>
    rw [Scan.outcome, hfault] at hrun
    rw [Scan.orElse, Scan.andThen_of_fault_eq_some hfault, ite_self, runOn_bind_of_error hrun,
      Scan.outcome, hfault]
  | none =>
    rw [Scan.outcome, hfault] at hrun
    rw [Scan.orElse, runOn_bind_of_ok hrun, DetectorInfo.isEmpty_findings]
    by_cases hempty : s.drafts.isEmpty = true
    · have hdrafts := List.isEmpty_iff.mp hempty
      rw [if_pos hempty, if_pos hempty, Scan.andThen_of_fault_eq_none hfault, hdrafts, hq,
        List.append_assoc]
      rfl
    · rw [if_neg hempty, if_neg hempty, runOn_pure, Scan.outcome, hfault]

/-- Notes come before what is found behind them. -/
theorem Follows.note (h : Follows p i s) (notes : List Note) :
    Follows (do DetectM.note notes; p) i (Scan.andThen { notes } s) := by
  intro l
  have hnote : (DetectM.note notes).runOn l = (.ok (), ⟨l.ids, l.notes ++ notes⟩) := rfl
  rw [runOn_bind_of_ok hnote, h, List.append_assoc]
  rfl

/-- A loop over a list follows the scans of its turns. -/
theorem Follows.flatMapM {look : α → DetectM (List Finding)} {scan : α → Scan} {as : List α}
    (h : ∀ a ∈ as, Follows (look a) i (scan a)) :
    Follows (as.flatMapM look) i (Scan.forEach as scan) := by
  induction as with
  | nil =>
    rw [List.flatMapM_nil]
    exact follows_nil
  | cons a as ih =>
    rw [List.flatMapM_cons, Scan.forEach_cons]
    exact (h a List.mem_cons_self).append (ih fun b hb => h b (List.mem_cons_of_mem a hb))

theorem follows_alongTails_nil (look : α → List α → DetectM (List Finding)) :
    Follows (alongTails look []) i {} := by
  rw [alongTails]
  exact follows_nil

/-- A loop over the tails of a list follows the scan of its first turn, then those of the rest. -/
theorem Follows.alongTails_cons {look : α → List α → DetectM (List Finding)} {a : α} {as : List α}
    (hfirst : Follows (look a as) i s) (hrest : Follows (alongTails look as) i t) :
    Follows (alongTails look (a :: as)) i (s.andThen t) := by
  rw [alongTails]
  exact hfirst.append hrest

/-! ### Drafts that are made findings -/

/-- **A draft that is made a finding** draws the next identifier. -/
theorem runOn_make (i : DetectorInfo) (draft : Draft) (l : Ledger) :
    (i.make draft).runOn l = (.ok (i.finding l.ids.next.1 draft), ⟨l.ids.skip 1, l.notes⟩) :=
  rfl

theorem follows_make (i : DetectorInfo) (draft : Draft) :
    Follows (do return [← i.make draft]) i (.ofDrafts [draft]) := by
  intro l
  rw [runOn_bind_of_ok (runOn_make i draft l), runOn_pure, Scan.outcome]
  exact congrArg (Prod.mk _ <| Ledger.mk _ ·) (List.append_nil l.notes).symm

/-- Drafts that are made findings one by one draw one identifier each, in their order. -/
theorem follows_mapM_make (i : DetectorInfo) (draft : α → Draft) (hits : List α) :
    Follows (hits.mapM fun hit => i.make (draft hit)) i (.ofDrafts (hits.map draft)) := by
  induction hits with
  | nil =>
    rw [List.mapM_nil]
    exact follows_nil
  | cons hit hits ih =>
    intro l
    have hrest := ih ⟨l.ids.skip 1, l.notes⟩
    rw [List.mapM_cons, runOn_bind_of_ok (runOn_make i (draft hit) l), runOn_bind_of_ok hrest,
      runOn_pure, IdSequence.skip_skip, Nat.add_comm]
    exact congrArg (Prod.mk · _) (congrArg Except.ok (i.findings_cons l.ids _ _).symm)

theorem follows_makeAll (i : DetectorInfo) (draft : α → Draft) (hits : Except Fault (List α)) :
    Follows (i.makeAll draft hits) i (.ofHits draft hits) := by
  cases hits with
  | error e => exact follows_throw e
  | ok hits => exact follows_mapM_make i draft hits

end DetectM

end TraceAudit
