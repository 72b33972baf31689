import Mathlib.Data.List.Forall2
import TraceAudit.Proofs.Report.Numbering
import TraceAudit.Proofs.Static.Numbers
import TraceAudit.Proofs.Static.Unusable

/-!
# Reports entry by entry

A tool reads the entries of a report one by one. What an entry comes to depends on no other entry:
its finding is that of a report with this entry alone, but for the number, and a report is refused
for its first entry that is refused alone. Entries that are passed over draw no number, so they
leave no gap, and two reports in one have the findings of both, the later ones numbered on
(`Tool.renumber`).

Where the entries stand in a report does not matter (`Tool.Lists`). All of this is collected in
`Tool.EntryByEntry`, which holds of every tool (`entryByEntry`).
-/

namespace TraceAudit.Static

variable {t : Tool} {e report : Value} {entries more : List Value} {fs gs : List Finding}
  {fault : Fault}

/-! ### Lists of entries -/

/-- Where the entries of a report stand: they are the report, or they are in a field of it. -/
inductive Tool.Lists : Tool → Value → List Value → Prop
  | alone (t : Tool) (entries : List Value) : Lists t (.list entries) entries
  | results {fields : Fields} {entries : List Value}
      (h : fields.get? "results" = some (.list entries)) : Lists .slither (.object fields) entries
  | detectors {fields inner : Fields} {entries : List Value}
      (h : fields.get? "results" = some (.object inner))
      (hinner : inner.get? "detectors" = some (.list entries)) :
      Lists .slither (.object fields) entries
  | issues {fields : Fields} {entries : List Value}
      (h : fields.get? "issues" = some (.list entries)) : Lists .mythril (.object fields) entries

theorem Tool.Lists.entries_eq (h : t.Lists report entries) : t.listed report = .ok entries := by
  cases h with
  | alone => cases t <;> rfl
  | results h => simp [Tool.listed, Tool.entries, slitherEntries, fieldOr, h]
  | detectors h hinner => simp [Tool.listed, Tool.entries, slitherEntries, fieldOr, h, hinner]
  | issues h => simp [Tool.listed, Tool.entries, mythrilEntries, fieldOr, h]

theorem Tool.Lists.normalize_eq (h : t.Lists report entries) :
    t.normalize report = t.ofEntries entries := by
  rw [Tool.normalize_eq, h.entries_eq]
  rfl

theorem Tool.normalize_list (t : Tool) (entries : List Value) :
    t.normalize (.list entries) = t.ofEntries entries :=
  (Tool.Lists.alone t entries).normalize_eq

/-! ### Entries one by one -/

/-- Whether an entry names a weakness. -/
def Tool.isNamed (t : Tool) : Value → Bool
  | .object fields => (Fields.get fields t.nameField).truthy
  | _ => false

/-- An entry that can be read has a finding exactly if it names a weakness. -/
theorem Tool.isSome_of_ofEntry {found : Option Finding} (h : t.ofEntry e = .ok found) :
    found.isSome = t.isNamed e := by
  cases e with
  | object fields =>
    rw [ofEntry] at h
    by_cases hname : (Fields.get fields t.nameField).truthy
    · rw [if_pos hname] at h
      obtain ⟨text, -, h⟩ := exists_of_bind_eq_ok h
      obtain ⟨f, -, h⟩ := exists_of_bind_eq_ok h
      obtain rfl : some f = found := Except.ok.inj h
      exact hname.symm
    · rw [if_neg hname] at h
      obtain rfl : none = found := Except.ok.inj h
      exact (Bool.eq_false_iff.mpr hname).symm
  | _ =>
    obtain rfl : none = found := Except.ok.inj h
    rfl

/-- The findings of entries, still without numbers, are those of the entries that name a
weakness. -/
theorem Tool.forall₂_filter_isNamed {found : List (Option Finding)}
    (h : List.Forall₂ (fun e o => t.ofEntry e = .ok o) entries found) :
    List.Forall₂ (fun e f => t.ofEntry e = .ok (some f)) (entries.filter t.isNamed)
      (found.filterMap id) := by
  induction h with
  | nil => exact .nil
  | @cons e o entries found he _ ih =>
    have hnamed := isSome_of_ofEntry he
    cases o with
    | none =>
      rw [List.filter_cons_of_neg (by simp [← hnamed])]
      exact ih
    | some f =>
      rw [List.filter_cons_of_pos hnamed.symm]
      exact .cons he ih

/-! ### Entries alone -/

theorem Tool.mapM_ofEntry_singleton (t : Tool) (e : Value) :
    [e].mapM t.ofEntry = (t.ofEntry e).map fun o => [o] := by
  rw [List.mapM_cons, List.mapM_nil]
  cases t.ofEntry e <;> rfl

/-- An entry alone makes a report of its finding, with the first number. -/
theorem Tool.ofEntries_singleton {f : Finding} (h : t.ofEntry e = .ok (some f)) :
    t.ofEntries [e] = .ok (t.renumber 0 [f]) := by
  have hfound : [e].mapM t.ofEntry = .ok [some f] := by
    rw [mapM_ofEntry_singleton, h]
    rfl
  exact ofEntries_of_mapM hfound

/-- An entry is refused alone exactly if it cannot be read. -/
theorem Tool.ofEntries_singleton_eq_error_iff :
    t.ofEntries [e] = .error fault ↔ t.ofEntry e = .error fault := by
  rw [ofEntries_eq_error_iff, mapM_ofEntry_singleton]
  cases t.ofEntry e <;> simp [Except.map]

theorem Tool.exists_ofEntries_singleton_iff :
    (∃ fs, t.ofEntries [e] = .ok fs) ↔ ∃ found, t.ofEntry e = .ok found := by
  refine not_iff_not.mp ?_
  rw [← exists_eq_error_iff, ← exists_eq_error_iff]
  exact exists_congr fun fault => ofEntries_singleton_eq_error_iff

/-! ### All entries of a report -/

/-- **Reports are read entry by entry.** -/
structure Tool.EntryByEntry (t : Tool) : Prop where
  /-- Two reports in one have the findings of both, the later ones numbered on. -/
  append : ∀ entries more fs gs, t.normalize (.list entries) = .ok fs →
    t.normalize (.list more) = .ok gs →
      t.normalize (.list (entries ++ more)) = .ok (fs ++ t.renumber fs.length gs)
  /-- Each entry that names a weakness has one finding, in the order of the entries: the finding of
  a report with this entry alone, but for the number. -/
  findings : ∀ entries fs, t.normalize (.list entries) = .ok fs →
    List.Forall₂ (fun e f => ∃ g, t.normalize (.list [e]) = .ok [g] ∧ g.unnumbered = f.unnumbered)
      (entries.filter t.isNamed) fs
  /-- The findings are numbered from one on, without gaps. -/
  ids : ∀ entries fs, t.normalize (.list entries) = .ok fs →
    fs.map Finding.id = IdSequence.upTo t.label 4 fs.length
  /-- A report is refused exactly if one of its entries is refused alone. -/
  refused_iff : ∀ entries, (∃ fault, t.normalize (.list entries) = .error fault) ↔
    ∃ e ∈ entries, ∃ fault, t.normalize (.list [e]) = .error fault
  /-- The fault is that of the first such entry. -/
  fault_iff : ∀ entries fault, t.normalize (.list entries) = .error fault ↔
    ∃ (i : Nat) (e : Value), entries[i]? = some e ∧ t.normalize (.list [e]) = .error fault ∧
      ∀ (j : Nat) e', j < i → entries[j]? = some e' → ∃ fs, t.normalize (.list [e']) = .ok fs
  /-- It does not matter where in the report its entries stand. -/
  lists : ∀ report entries, t.Lists report entries →
    t.normalize report = t.normalize (.list entries)

theorem Tool.ofEntries_append (h : t.ofEntries entries = .ok fs) (h' : t.ofEntries more = .ok gs) :
    t.ofEntries (entries ++ more) = .ok (fs ++ t.renumber fs.length gs) := by
  obtain ⟨found, hfound, rfl⟩ := exists_found_of_ofEntries h
  obtain ⟨found', hfound', rfl⟩ := exists_found_of_ofEntries h'
  have hall : (entries ++ more).mapM t.ofEntry = .ok (found ++ found') := by
    rw [List.mapM_append, hfound, hfound']
    rfl
  rw [ofEntries_of_mapM hall, List.filterMap_append, renumber_append, renumber_renumber,
    Nat.zero_add]
  congr 3
  exact List.length_mapIdx.symm

theorem Tool.forall₂_of_ofEntries (h : t.ofEntries entries = .ok fs) :
    List.Forall₂ (fun e f => ∃ g, t.ofEntries [e] = .ok [g] ∧ g.unnumbered = f.unnumbered)
      (entries.filter t.isNamed) fs := by
  obtain ⟨found, hfound, rfl⟩ := exists_found_of_ofEntries h
  obtain ⟨hlength, halone⟩ :=
    List.forall₂_iff_get.mp (forall₂_filter_isNamed (forall₂_of_mapM hfound))
  refine List.forall₂_iff_get.mpr ⟨hlength.trans List.length_mapIdx.symm, ?_⟩
  intro k hk hk'
  have hk'' : k < (found.filterMap id).length := hlength ▸ hk
  refine ⟨_, ofEntries_singleton (halone k hk hk''), ?_⟩
  -- the finding alone and the finding of the list are made of the same one
  simp [renumber, Finding.unnumbered]

theorem Tool.refused_iff_exists_mem : (∃ fault, t.ofEntries entries = .error fault) ↔
    ∃ e ∈ entries, ∃ fault, t.ofEntries [e] = .error fault := by
  simp only [ofEntries_singleton_eq_error_iff]
  simp only [ofEntries_eq_error_iff, exists_eq_error_iff, exists_mapM_eq_ok_iff, not_forall,
    exists_prop]

/-- **Every tool reads its reports entry by entry**, whatever the entries are. -/
theorem entryByEntry (t : Tool) : t.EntryByEntry where
  append entries more fs gs := by
    simp only [Tool.normalize_list]
    exact Tool.ofEntries_append
  findings entries fs := by
    simp only [Tool.normalize_list]
    exact Tool.forall₂_of_ofEntries
  ids entries fs h := by
    rw [Tool.normalize_list] at h
    exact (Tool.ids_ofEntries h).trans (IdSequence.draw_new t.label 4 fs.length)
  refused_iff entries := by
    simp only [Tool.normalize_list]
    exact Tool.refused_iff_exists_mem
  fault_iff entries fault := by
    simp only [Tool.normalize_list, Tool.ofEntries_singleton_eq_error_iff,
      Tool.exists_ofEntries_singleton_iff]
    rw [Tool.ofEntries_eq_error_iff, mapM_eq_error_iff]
  lists report entries h := by
    rw [h.normalize_eq, Tool.normalize_list]

/-- An entry that names a weakness, and one that is no object. -/
def namedEntries : List Value := [.object [("check", .text "reentrancy-eth")], .int 7]

/-- An entry that names no weakness, and one that does. -/
def laterEntries : List Value :=
  [.object [("impact", .text "High")], .object [("check", .text "tx-origin")]]

/-- Two of four entries have findings, and they are numbered without a gap, wherever the entries
stand. An issue whose description is a number makes its report unusable. -/
theorem entryByEntry_laterEntries :
    (∃ fs, Tool.slither.normalize (.list (namedEntries ++ laterEntries)) = .ok fs ∧
      fs.map Finding.id = ["STATIC-SLITHER-0001", "STATIC-SLITHER-0002"] ∧
      Tool.slither.normalize (.object [("results",
        .object [("detectors", .list (namedEntries ++ laterEntries))])]) = .ok fs) ∧
    ∃ fault, Tool.mythril.normalize (.list [.null,
      .object [("title", .text "Reentrancy"), ("description", .int 5)]]) = .error fault := by
  have hslither := entryByEntry .slither
  obtain ⟨fs, hfs⟩ : ∃ fs, Tool.slither.normalize (.list namedEntries) = .ok fs := ⟨_, rfl⟩
  obtain ⟨gs, hgs⟩ : ∃ gs, Tool.slither.normalize (.list laterEntries) = .ok gs := ⟨_, rfl⟩
  have hall := hslither.append _ _ _ _ hfs hgs
  have hlength : fs.length = 1 ∧ gs.length = 1 := by
    obtain rfl := Except.ok.inj hfs
    obtain rfl := Except.ok.inj hgs
    exact ⟨rfl, rfl⟩
  refine ⟨⟨_, hall, ?_, ?_⟩, ?_⟩
  · rw [hslither.ids _ _ hall, List.length_append, Tool.renumber, List.length_mapIdx, hlength.1,
      hlength.2]
    decide
  · rw [← hall]
    exact hslither.lists _ _ (.detectors rfl rfl)
  · refine ((entryByEntry .mythril).refused_iff _).mpr
      ⟨_, List.mem_cons_of_mem _ List.mem_cons_self, ?_⟩
    exact ⟨.rejectedFields ["description"], rfl⟩

end TraceAudit.Static
