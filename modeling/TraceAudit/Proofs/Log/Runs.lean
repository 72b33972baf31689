import Mathlib.Data.List.MinMax
import TraceAudit.Log.Script
import TraceAudit.Proofs.Log.Handlers

/-!
# Runs restore what they change

Leaving a run undoes its opening (`Session.leave_of_enter`). It is the number of its tag that makes
this so: no filter had it before, so the tag is put on each handler that is reached, once even if
the handler is met several times, and it is this tag that is taken away. So no program changes the
state of logging, whatever it fails at (`Script.session_perform`).
-/

namespace TraceAudit.Log

variable {s u : Session} {name : String} {tag : RunTag} {h : Handler}

namespace Session

/-! ### Opening and leaving a run -/

theorem newNumber_notMem (hh : h ∈ s.handlers) : s.newNumber ∉ h.filters.map Prod.fst := by
  intro hmem
  obtain ⟨f, hf, heq⟩ := List.mem_map.mp hmem
  have hle : f.1 + 1 ≤ s.newNumber := by
    refine List.le_max_of_le' 0 (List.mem_map.mpr ⟨f, ?_, rfl⟩) le_rfl
    exact List.mem_flatMap.mpr ⟨h, hh, hf⟩
  omega

/-- Where to change a handler twice is to change it once, it does not matter how often it is met. -/
theorem modifyHandlers_eq {change : Handler → Handler} (hid : ∀ h, (change h).id = h.id)
    (htwice : ∀ h ∈ s.handlers, change (change h) = change h) (ids : List Nat) :
    s.modifyHandlers ids change =
      { s with handlers := s.handlers.map fun h => if h.id ∈ ids then change h else h } := by
  induction ids generalizing s with
  | nil => simp [modifyHandlers]
  | cons id ids ih =>
    have hstep : s.modifyHandlers (id :: ids) change =
        (s.modifyHandler id change).modifyHandlers ids change := rfl
    rw [hstep, ih]
    · simp only [modifyHandler, List.map_map]
      congr 1
      refine List.map_congr_left fun h hh => ?_
      by_cases hfirst : h.id = id
      · simp [hfirst, hid, htwice h hh]
      · simp [hfirst]
    · intro h hh
      obtain ⟨g, hg, rfl⟩ := List.mem_map.mp hh
      split
      · rw [htwice g hg, htwice g hg]
      · exact htwice g hg

/-- A handler inside of the next run: with its tag, if the channel of the run reaches it. -/
def inNextRun (s : Session) (name : String) (tag : RunTag) (h : Handler) : Handler :=
  if h.id ∈ s.reachable name then h.addFilter s.newNumber (.tag tag) else h

@[simp] theorem id_inNextRun (s : Session) (name : String) (tag : RunTag) (h : Handler) :
    (s.inNextRun name tag h).id = h.id := by
  unfold inNextRun
  split <;> simp

theorem removeFilter_inNextRun (hh : h ∈ s.handlers) (name : String) (tag : RunTag) :
    (s.inNextRun name tag h).removeFilter s.newNumber = h := by
  unfold inNextRun
  split
  · exact Handler.removeFilter_addFilter (newNumber_notMem hh) (.tag tag)
  · exact Handler.removeFilter_of_notMem (newNumber_notMem hh)

/-- Opening a run puts its tag on the handlers that its channel reaches, once on each. -/
theorem enter_eq (hname : scopeChannel tag.scope = .ok name) :
    s.enter tag = .ok { s with
      handlers := s.handlers.map (s.inNextRun name tag)
      runs := ⟨s.newNumber, s.reachable name⟩ :: s.runs } := by
  have hmodify := modifyHandlers_eq (Handler.id_addFilter s.newNumber (.tag tag))
    (fun h (_ : h ∈ s.handlers) => h.addFilter_addFilter s.newNumber (.tag tag)) (s.reachable name)
  rw [enter, hname]
  simp only [bind, Except.bind, hmodify]
  rfl

theorem enter_text (s : Session) (run : Value) (scope : String) :
    s.enter ⟨run, .text scope⟩ = .ok { s with
      handlers := s.handlers.map (s.inNextRun scope ⟨run, .text scope⟩)
      runs := ⟨s.newNumber, s.reachable scope⟩ :: s.runs } :=
  enter_eq rfl

/-- **Leaving a run undoes its opening.** -/
theorem leave_of_enter (hu : s.enter tag = .ok u) : u.leave = .ok s := by
  obtain ⟨name, hname, -⟩ := exists_of_bind_eq_ok hu
  have hopened := Except.ok.inj ((enter_eq hname).symm.trans hu)
  have hhandlers : u.handlers = s.handlers.map (s.inNextRun name tag) := by rw [← hopened]
  have htwice : ∀ g ∈ u.handlers,
      (g.removeFilter s.newNumber).removeFilter s.newNumber = g.removeFilter s.newNumber := by
    intro g hg
    rw [hhandlers] at hg
    obtain ⟨h, hh, rfl⟩ := List.mem_map.mp hg
    rw [removeFilter_inNextRun hh, Handler.removeFilter_of_notMem (newNumber_notMem hh)]
  have hback : u.handlers.map (fun g =>
      if g.id ∈ s.reachable name then g.removeFilter s.newNumber else g) = s.handlers := by
    rw [hhandlers, List.map_map]
    refine (List.map_congr_left fun h hh => ?_).trans (List.map_id s.handlers)
    by_cases hreached : h.id ∈ s.reachable name
    · simp [hreached, removeFilter_inNextRun hh]
    · simp [hreached, inNextRun]
  have hruns : u.runs = ⟨s.newNumber, s.reachable name⟩ :: s.runs := by rw [← hopened]
  rw [leave, hruns]
  simp only [modifyHandlers_eq (Handler.id_removeFilter s.newNumber) htwice, hback]
  rw [← hopened]

end Session

/-! ### Programs -/

theorem Session.within_of_enter {body : Session → Outcome} (hu : s.enter tag = .ok u)
    (hbody : (body u).session = u) : s.within tag body = { body u with session := s } := by
  simp only [within, hu, hbody, leave_of_enter hu]

/-- **No program changes the state of logging**, be it that it fails. -/
theorem Script.session_perform (script : Script) (s : Session) :
    (script.perform s).session = s := by
  induction script generalizing s with
  | log now r => rfl
  | fail fault => rfl
  | skip => rfl
  | andThen first second hfirst hsecond =>
    rw [perform]
    split
    · exact hfirst s
    · exact (hsecond _).trans (hfirst s)
  | orElse first second hfirst hsecond =>
    rw [perform]
    split
    · exact hfirst s
    · exact (hsecond _).trans (hfirst s)
  | within tag body ih =>
    rw [perform]
    cases hu : s.enter tag with
    | error fault => simp [Session.within, hu]
    | ok u => rw [Session.within_of_enter hu (ih u)]

end TraceAudit.Log
