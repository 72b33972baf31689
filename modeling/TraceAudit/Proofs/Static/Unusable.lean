import TraceAudit.Proofs.Json.Read
import TraceAudit.Proofs.Report.Identity
import TraceAudit.Proofs.Static.Numbers

/-!
# Unusable sources

A source is of no use if its name is that of no tool, if its report is missing, or if the tool
refuses the report: because it holds no entries, or because one of its entries cannot be read
(`IsUnusable`). Then nothing is found in it, not even what the entries before the refused one say
(`exists_notes_of_isUnusable`).

A report may be anything, so it can be wrong in every part that is looked at. Still the faults that
it comes to are of few kinds, and all but one are foreseen (`isForeseen_or_eq_of_normalize`). The
one is nesting that is too deep: of the JSON that a report is, or of what should be the name of a
weakness (`Tool.ReadsTooDeep`). So reading a source fails exactly at reports of this kind
(`exists_ofSource_eq_error_iff`), which are deeply nested as a whole (`Tool.ReadsTooDeep.lt_depth`).
-/

namespace TraceAudit.Static

variable {t : Tool} {s : String × Value} {e v report : Value} {entries : List Value} {fault : Fault}

/-! ### The faults of a report -/

/-- A computation that comes to foreseen faults only. -/
abbrev Foreseen {α : Type} (x : Except Fault α) : Prop :=
  FailsOnly (fun fault => isForeseen fault = true) x

theorem foreseen_entries (t : Tool) (report : Value) : Foreseen (t.entries report) := by
  cases t with
  | slither =>
    change Foreseen (slitherEntries report)
    unfold slitherEntries
    split
    · exact .ok _
    · dsimp only
      split
      · exact .ok _
      · exact .error rfl
    · exact .error rfl
  | mythril =>
    change Foreseen (mythrilEntries report)
    unfold mythrilEntries
    split
    · exact .ok _
    · split
      · exact .ok _
      · exact .error rfl
    · exact .error rfl

theorem foreseen_parentContract (element : Fields) : Foreseen (parentContract element) := by
  unfold parentContract
  split
  · split
    · split
      · exact .ok _
      · exact .ok _
    · exact .ok _
  · exact .error rfl

theorem foreseen_locateElement (place : Fields) (v : Value) :
    Foreseen (locateElement place v) := by
  unfold locateElement
  split
  · dsimp only
    split
    · split
      · exact .ok _
      · refine (foreseen_parentContract _).bind fun contract => ?_
        cases contract with
        | none => exact .ok _
        | some contract => exact .ok _
    · exact .ok _
    · exact .ok _
  · exact .ok _

theorem foreseen_location (v : Value) : Foreseen (location v) := by
  unfold location
  split
  · exact (FailsOnly.foldlM foreseen_locateElement _ _).bind fun _ => .ok _
  · exact .ok _

theorem foreseen_finding (t : Tool) (entry : Fields) (name : String) :
    Foreseen (t.finding entry name) := by
  cases t with
  | slither =>
    change Foreseen (slitherFinding entry name)
    unfold slitherFinding
    dsimp only
    split
    · exact (FailsOnly.ok _).bind fun _ => (foreseen_location _).bind fun _ => .ok _
    · exact FailsOnly.error_bind rfl
  | mythril =>
    change Foreseen (mythrilFinding entry name)
    unfold mythrilFinding
    dsimp only
    split
    · exact (FailsOnly.ok _).bind fun _ => .ok _
    · exact FailsOnly.error_bind rfl

/-- Reading an entry fails for what is not as it should be, or for a name that is nested too
deeply. -/
theorem Tool.ofEntry_eq_error (h : t.ofEntry e = .error fault) :
    isForeseen fault = true ∨ fault = .tooDeep ∧ ∃ fields, e = .object fields ∧
      (Fields.get fields t.nameField).display? = .error .tooDeep := by
  unfold Tool.ofEntry at h
  split at h
  · next fields =>
    dsimp only at h
    split at h
    · rcases bind_eq_error_iff.mp h with hname | ⟨name, -, h⟩
      · rcases Value.eq_or_eq_of_display? hname with rfl | rfl
        · exact .inl rfl
        · exact .inr ⟨rfl, fields, rfl, hname⟩
      · rcases bind_eq_error_iff.mp h with h | ⟨f, -, h⟩
        · exact .inl (foreseen_finding t fields name fault h)
        · cases h
    · cases h
  · cases h

theorem Tool.ofEntry_of_tooDeep {fields : Fields}
    (h : (Fields.get fields t.nameField).display? = .error .tooDeep) :
    t.ofEntry (.object fields) = .error .tooDeep := by
  have htruthy : (Fields.get fields t.nameField).truthy = true := Value.truthy_of_tooDeep h
  rw [ofEntry, if_pos htruthy, h]
  rfl

/-- The entries of a report, which may be JSON text. -/
def Tool.listed (t : Tool) (report : Value) : Except Fault (List Value) :=
  match report with
  | .text s => do t.entries (← Json.read s)
  | v => t.entries v

theorem Tool.normalize_eq (t : Tool) (report : Value) :
    t.normalize report = t.listed report >>= t.ofEntries := by
  cases report with
  | text s =>
    change (Json.read s >>= fun v => t.entries v >>= t.ofEntries) =
      (Json.read s >>= t.entries) >>= _
    rw [bind_assoc]
  | _ => rfl

theorem Tool.listed_eq_error (h : t.listed report = .error fault) :
    isForeseen fault = true ∨ fault = .tooDeep ∧
      ∃ text, report = .text text ∧ Json.read text = .error .tooDeep := by
  unfold listed at h
  split at h
  · next text =>
    rcases bind_eq_error_iff.mp h with hread | ⟨v, -, h⟩
    · rcases Json.failsOnly_read text fault hread with rfl | rfl | rfl
      · exact .inl rfl
      · exact .inl rfl
      · exact .inr ⟨rfl, text, rfl, hread⟩
    · exact .inl (foreseen_entries t v fault h)
  · exact .inl (foreseen_entries t report fault h)

/-! ### Reports that are nested too deeply -/

/-- Reading a report comes to nesting that is too deep before it comes to any other fault: in the
JSON that it is, or in the name that an entry has. -/
inductive Tool.ReadsTooDeep (t : Tool) : Value → Prop
  | text {text : String} (h : Json.read text = .error .tooDeep) : ReadsTooDeep t (.text text)
  | name {report : Value} {entries : List Value} {i : Nat} {fields : Fields}
      (hlisted : t.listed report = .ok entries) (hentry : entries[i]? = some (.object fields))
      (hname : (Fields.get fields t.nameField).display? = .error .tooDeep)
      (hbefore : ∀ (j : Nat) e, j < i → entries[j]? = some e → ∃ found, t.ofEntry e = .ok found) :
      ReadsTooDeep t report

/-- **Whatever a report is, it comes to foreseen faults**, unless it is nested too deeply. -/
theorem isForeseen_or_eq_of_normalize (h : t.normalize report = .error fault) :
    isForeseen fault = true ∨ fault = .tooDeep ∧ t.ReadsTooDeep report := by
  rw [Tool.normalize_eq] at h
  rcases bind_eq_error_iff.mp h with h | ⟨entries, hlisted, h⟩
  · refine (Tool.listed_eq_error h).imp_right ?_
    rintro ⟨rfl, text, rfl, hread⟩
    exact ⟨rfl, .text hread⟩
  · obtain ⟨i, e, hentry, he, hbefore⟩ := mapM_eq_error_iff.mp (Tool.ofEntries_eq_error_iff.mp h)
    refine (Tool.ofEntry_eq_error he).imp_right ?_
    rintro ⟨rfl, fields, rfl, hname⟩
    exact ⟨rfl, .name hlisted hentry hname hbefore⟩

theorem Tool.ReadsTooDeep.normalize_eq (h : t.ReadsTooDeep report) :
    t.normalize report = .error .tooDeep := by
  rw [Tool.normalize_eq]
  cases h with
  | text h =>
    rw [listed, h]
    rfl
  | name hlisted hentry hname hbefore =>
    rw [hlisted]
    refine Tool.ofEntries_eq_error_iff.mpr (mapM_eq_error_iff.mpr ?_)
    exact ⟨_, _, hentry, ofEntry_of_tooDeep hname, hbefore⟩

theorem depth_fieldOr_le (fields : Fields) (name : String) :
    (fieldOr fields name (.list [])).depth ≤ (Value.object fields).depth := by
  have hget := Value.depth_get_le fields name
  rw [Fields.get] at hget
  rw [fieldOr, Value.depth]
  cases h : fields.get? name with
  | none => exact Nat.le_add_left 1 _
  | some v => rwa [h] at hget

theorem depth_list_le_of_slitherEntries (h : slitherEntries v = .ok entries) :
    (Value.list entries).depth ≤ v.depth := by
  unfold slitherEntries at h
  split at h
  · cases h
    exact Nat.le_refl _
  · next fields =>
    have hresults := depth_fieldOr_le fields "results"
    dsimp only at h
    split at h
    · next hentries =>
      cases h
      split at hentries
      · next inner hinner =>
        -- the results are an object, and the entries stand in one of its fields
        have hdetectors := depth_fieldOr_le inner "detectors"
        rw [hinner] at hresults
        exact hentries ▸ Nat.le_trans hdetectors hresults
      · exact hentries ▸ hresults
    · cases h
  · cases h

theorem depth_list_le_of_mythrilEntries (h : mythrilEntries v = .ok entries) :
    (Value.list entries).depth ≤ v.depth := by
  unfold mythrilEntries at h
  split at h
  · cases h
    exact Nat.le_refl _
  · next fields =>
    split at h
    · next hentries =>
      cases h
      exact hentries ▸ depth_fieldOr_le fields "issues"
    · cases h
  · cases h

/-- The entries of a report stand within it. -/
theorem depth_lt_of_mem_entries (h : t.entries v = .ok entries) (he : e ∈ entries) :
    e.depth < v.depth := by
  have hlist : (Value.list entries).depth ≤ v.depth := by
    cases t with
    | slither => exact depth_list_le_of_slitherEntries h
    | mythril => exact depth_list_le_of_mythrilEntries h
  exact Nat.lt_of_lt_of_le (Nat.lt_succ_of_le (Value.depth_le_of_mem he)) hlist

/-- An entry with too deep a name is too deep itself, and so is the value that it stands in. -/
theorem lt_depth_of_name {i : Nat} {fields : Fields} (h : t.entries v = .ok entries)
    (hentry : entries[i]? = some (.object fields))
    (hname : (Fields.get fields t.nameField).display? = .error .tooDeep) :
    Value.maxDepth + 1 < v.depth := by
  have hentries := depth_lt_of_mem_entries h (List.mem_of_getElem? hentry)
  have hget := Value.depth_get_le fields t.nameField
  have hdeep : Value.maxDepth < (Fields.get fields t.nameField).depth :=
    Nat.lt_of_not_le fun hle => Value.display?_ne_tooDeep hle hname
  rw [Value.depth] at hentries
  omega

/-- A text is nested too deeply as JSON or not at all: what can be read has no name that is too
deep. -/
theorem Tool.readsTooDeep_text_iff {text : String} :
    t.ReadsTooDeep (.text text) ↔ Json.read text = .error .tooDeep := by
  refine ⟨fun h => ?_, .text⟩
  cases h with
  | text h => exact h
  | name hlisted hentry hname =>
    obtain ⟨v, hread, hentries⟩ := exists_of_bind_eq_ok hlisted
    have hlt := lt_depth_of_name hentries hentry hname
    exact absurd (Json.depth_le_of_read hread) (Nat.not_le_of_lt hlt)

/-- A report that is no text is nested too deeply only if it is so as a whole. -/
theorem Tool.ReadsTooDeep.lt_depth (h : t.ReadsTooDeep report)
    (htext : ∀ text, report ≠ .text text) :
    Value.maxDepth + 1 < report.depth := by
  cases h with
  | text => exact absurd rfl (htext _)
  | name hlisted hentry hname =>
    have hentries : t.listed report = t.entries report := by
      unfold listed
      split
      · exact absurd rfl (htext _)
      · rfl
    exact lt_depth_of_name (hentries ▸ hlisted) hentry hname

/-- What is nested too deeply is not foreseen, so reading the source fails. -/
theorem Tool.ReadsTooDeep.ofSource_eq {name : String} (h : t.ReadsTooDeep report)
    (hname : Tool.ofName? name = some t) : ofSource name report = .error .tooDeep := by
  have hnormalize := h.normalize_eq
  rw [ofSource, hname]
  dsimp only
  split
  · cases t <;> cases hnormalize
  · rw [hnormalize]
    rfl

/-- The report of a source is nested too deeply for its tool. -/
def IsTooDeep (s : String × Value) : Prop :=
  ∃ t, Tool.ofName? s.1 = some t ∧ t.ReadsTooDeep s.2

theorem isTooDeep_iff_of_text {text : String} (hname : Tool.ofName? s.1 = some t)
    (htext : s.2 = .text text) : IsTooDeep s ↔ Json.read text = .error .tooDeep := by
  rw [← Tool.readsTooDeep_text_iff (t := t), ← htext]
  refine ⟨fun ⟨t', ht', hdeep⟩ => ?_, fun hdeep => ⟨t, hname, hdeep⟩⟩
  obtain rfl : t' = t := Option.some.inj (ht'.symm.trans hname)
  exact hdeep

/-- **Reading a source fails exactly if it is nested too deeply.** -/
theorem exists_ofSource_eq_error_iff :
    (∃ fault, ofSource s.1 s.2 = .error fault) ↔ IsTooDeep s := by
  rw [ofSource, IsTooDeep]
  cases hname : Tool.ofName? s.1 with
  | none =>
    refine iff_of_false ?_ ?_
    · rintro ⟨_, h⟩
      cases h
    · rintro ⟨_, h, _⟩
      cases h
  | some t =>
    constructor
    · rintro ⟨fault, h⟩
      dsimp only at h
      split at h
      · cases h
      · split at h
        · cases h
        · next fault' hnormalize =>
          split at h
          · cases h
          · next hforeseen =>
            rcases isForeseen_or_eq_of_normalize hnormalize with hyes | ⟨-, hdeep⟩
            · exact absurd hyes hforeseen
            · exact ⟨t, rfl, hdeep⟩
    · rintro ⟨t', ht, hdeep⟩
      have hfails := hdeep.ofSource_eq (hname.trans ht)
      rw [ofSource, hname] at hfails
      exact ⟨.tooDeep, hfails⟩

/-! ### Sources of no use -/

/-- A tool refuses a report if it holds no entries or if any of its entries is refused. -/
def Tool.Refuses (t : Tool) (report : Value) : Prop :=
  (∃ fault, t.listed report = .error fault) ∨
    ∃ entries, t.listed report = .ok entries ∧ ∃ e ∈ entries, ∃ fault, t.ofEntry e = .error fault

theorem Tool.refuses_iff : t.Refuses report ↔ ∃ fault, t.normalize report = .error fault := by
  rw [Tool.normalize_eq]
  cases hlisted : t.listed report with
  | error fault => exact iff_of_true (.inl ⟨fault, hlisted⟩) ⟨fault, rfl⟩
  | ok entries =>
    change _ ↔ ∃ fault, t.ofEntries entries = .error fault
    simp only [ofEntries_eq_error_iff]
    constructor
    · rintro (⟨fault, h⟩ | ⟨entries', h, e, he, hfault⟩)
      · rw [hlisted] at h
        cases h
      · obtain rfl : entries = entries' := Except.ok.inj (hlisted.symm.trans h)
        exact exists_eq_error_iff.mpr fun hall =>
          exists_eq_error_iff.mp hfault (exists_mapM_eq_ok_iff.mp hall e he)
    · rintro ⟨fault, h⟩
      obtain ⟨i, e, he, hfault, -⟩ := mapM_eq_error_iff.mp h
      exact .inr ⟨entries, hlisted, e, List.mem_of_getElem? he, fault, hfault⟩

/-- A source of which nothing can be made. -/
def IsUnusable (s : String × Value) : Prop :=
  Tool.ofName? s.1 = none ∨ s.2 = .null ∨ ∃ t, Tool.ofName? s.1 = some t ∧ t.Refuses s.2

/-- **An unusable source returns nothing**, whatever its other entries say, unless it is nested too
deeply. -/
theorem exists_notes_of_isUnusable (h : IsUnusable s) (hdeep : ¬IsTooDeep s) :
    ∃ notes, ofSource s.1 s.2 = .ok ([], notes) := by
  cases hresult : ofSource s.1 s.2 with
  | error fault => exact absurd (exists_ofSource_eq_error_iff.mp ⟨fault, hresult⟩) hdeep
  | ok result =>
    obtain ⟨findings, notes⟩ := result
    refine ⟨notes, congrArg (fun fs => Except.ok (fs, notes)) ?_⟩
    change (findings, notes).1 = []
    rw [← resultOf_of_ofSource hresult]
    change foundIn s = []
    by_contra hfound
    obtain ⟨t, ht, hnormalize⟩ := exists_tool_of_foundIn hfound
    rcases h with hname | hreport | ⟨t', ht', hrefuses⟩
    · rw [hname] at ht
      cases ht
    · rw [hreport] at hnormalize
      cases t <;> cases hnormalize
    · obtain rfl : t' = t := Option.some.inj (ht'.symm.trans ht)
      obtain ⟨fault, hfault⟩ := Tool.refuses_iff.mp hrefuses
      rw [hfault] at hnormalize
      cases hnormalize

end TraceAudit.Static
