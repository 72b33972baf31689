import TraceAudit.Proofs.Detector.Scan
import TraceAudit.Proofs.Faults
import TraceAudit.Static.Tool

/-!
# Numbers of the findings of a tool

A tool draws an identifier for an entry as soon as it has read the entry and made a finding of it,
and goes on to the next entry with what is left of its sequence. Entries that are passed over draw
nothing. So the findings of a report are what its entries come to one by one, numbered on from where
the sequence stands (`Tool.ofEntriesFrom_eq`).
-/

namespace TraceAudit.Static.Tool

/-- Number findings on from where others have left off. -/
def renumber (t : Tool) (left : Nat) (fs : List Finding) : List Finding :=
  fs.mapIdx fun k f => { f with id := IdSequence.nth { label := t.label } (left + k + 1) }

variable {t : Tool} {entries : List Value} {fs : List Finding}

theorem renumber_cons (t : Tool) (left : Nat) (f : Finding) (fs : List Finding) :
    t.renumber left (f :: fs) =
      { f with id := IdSequence.nth { label := t.label } (left + 1) } ::
        t.renumber (left + 1) fs := by
  rw [renumber, List.mapIdx_cons, renumber]
  congr 2
  funext k f
  rw [Nat.add_comm k, ← Nat.add_assoc]

/-- Findings that are numbered again have their last numbers only. -/
theorem renumber_renumber (t : Tool) (m n : Nat) (fs : List Finding) :
    t.renumber m (t.renumber n fs) = t.renumber m fs := by
  rw [renumber, renumber, List.mapIdx_mapIdx]
  rfl

theorem renumber_append (t : Tool) (left : Nat) (fs gs : List Finding) :
    t.renumber left (fs ++ gs) = t.renumber left fs ++ t.renumber (left + fs.length) gs := by
  induction fs generalizing left with
  | nil => rfl
  | cons f fs ih =>
    rw [List.cons_append, renumber_cons, renumber_cons, ih, List.cons_append, List.length_cons,
      Nat.add_assoc, Nat.add_comm 1]

theorem ids_renumber (t : Tool) (left : Nat) (fs : List Finding) :
    (t.renumber left fs).map Finding.id = (t.ids.skip left).draw fs.length := by
  induction fs generalizing left with
  | nil => rfl
  | cons f fs ih =>
    have hfirst : (t.ids.skip left).draw 1 = [IdSequence.nth { label := t.label } (left + 1)] :=
      congrArg (fun k => [IdSequence.nth { label := t.label } (k + 1)]) (Nat.zero_add left)
    rw [renumber_cons, List.map_cons, ih, List.length_cons, Nat.add_comm fs.length,
      IdSequence.draw_add, IdSequence.skip_skip, hfirst]
    rfl

/-- **Numbers are drawn as entries are read**, and so they are handed out to what the entries come
to, in order. -/
theorem ofEntriesFrom_eq (t : Tool) (left : Nat) (entries : List Value) :
    t.ofEntriesFrom (t.ids.skip left) entries =
      (entries.mapM t.ofEntry).map fun found => t.renumber left (found.filterMap id) := by
  induction entries generalizing left with
  | nil => rfl
  | cons entry rest ih =>
    rw [ofEntriesFrom, List.mapM_cons]
    cases t.ofEntry entry with
    | error fault => rfl
    | ok found =>
      cases found with
      | none =>
        change t.ofEntriesFrom (t.ids.skip left) rest = (rest.mapM t.ofEntry >>= _).map _
        rw [ih]
        cases rest.mapM t.ofEntry <;> rfl
      | some f =>
        have hdrawn : (t.ids.skip left).next =
            (IdSequence.nth { label := t.label } (left + 1), t.ids.skip (left + 1)) := by
          rw [IdSequence.next, IdSequence.skip_skip]
          exact congrArg (fun k => (IdSequence.nth { label := t.label } (k + 1), _))
            (Nat.zero_add left)
        change (t.ofEntriesFrom (t.ids.skip left).next.2 rest >>= fun more =>
          .ok ({ f with id := (t.ids.skip left).next.1 } :: more)) =
            (rest.mapM t.ofEntry >>= fun more => .ok (some f :: more)).map _
        rw [hdrawn, ih]
        cases rest.mapM t.ofEntry with
        | error fault => rfl
        | ok found => exact congrArg Except.ok (t.renumber_cons left f _).symm

/-- The findings of a report are what its entries come to, numbered from one on. -/
theorem ofEntries_eq (t : Tool) (entries : List Value) :
    t.ofEntries entries =
      (entries.mapM t.ofEntry).map fun found => t.renumber 0 (found.filterMap id) :=
  t.ofEntriesFrom_eq 0 entries

theorem ofEntries_of_mapM {found : List (Option Finding)} (h : entries.mapM t.ofEntry = .ok found) :
    t.ofEntries entries = .ok (t.renumber 0 (found.filterMap id)) := by
  rw [ofEntries_eq, h]
  rfl

/-- What entries come to: the findings of their list, before they are numbered. -/
theorem exists_found_of_ofEntries (h : t.ofEntries entries = .ok fs) :
    ∃ found, entries.mapM t.ofEntry = .ok found ∧ fs = t.renumber 0 (found.filterMap id) := by
  rw [ofEntries_eq] at h
  obtain ⟨found, hfound, rfl⟩ := exists_of_map_eq_ok h
  exact ⟨found, hfound, rfl⟩

theorem ids_ofEntries (h : t.ofEntries entries = .ok fs) :
    fs.map Finding.id = t.ids.draw fs.length := by
  obtain ⟨found, -, rfl⟩ := exists_found_of_ofEntries h
  have hids := t.ids_renumber 0 (found.filterMap id)
  have hlength := congrArg List.length hids
  rw [List.length_map, IdSequence.length_draw] at hlength
  rw [hids, hlength]
  rfl

/-- A list of entries is refused exactly if reading them one by one is. -/
theorem ofEntries_eq_error_iff {fault : Fault} :
    t.ofEntries entries = .error fault ↔ entries.mapM t.ofEntry = .error fault := by
  rw [ofEntries_eq]
  cases entries.mapM t.ofEntry <;> simp [Except.map]

end TraceAudit.Static.Tool
