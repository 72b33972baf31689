import TraceAudit.Proofs.Fields
import TraceAudit.Proofs.Finding.Place
import TraceAudit.Proofs.Report.Identity

/-!
# The evidence of tools

Whatever the report of a tool says, the fields of the evidence that is made of it have names from a
short list (`Tool.evidenceNames`): texts of the report become values, never names of fields. No
frame is on the list, so a finding of a tool names no frame (`frameId_of_mem_found`).
-/

namespace TraceAudit.Static

variable {t : Tool} {fs : List Finding} {f : Finding} {entry place place' : Fields} {name : String}
  {v : Value}

/-! ### Places in the source -/

/-- All fields of a place in the source are a function or a contract. -/
def IsPlace (place : Fields) : Prop :=
  ∀ name ∈ place.map Prod.fst, name ∈ ["function", "contract"]

theorem IsPlace.put (h : IsPlace place) (hname : name ∈ ["function", "contract"]) (v : Value) :
    IsPlace (place.put name v) := by
  intro other hother
  rcases Fields.mem_names_put.mp hother with rfl | hother
  · exact hname
  · exact h other hother

theorem IsPlace.putContract (h : IsPlace place) (v : Value) :
    IsPlace (if place.has "contract" then place else place.put "contract" v) := by
  split
  · exact h
  · exact h.put (by decide) v

/-- What one element tells makes a place of a place. -/
theorem IsPlace.locateElement (h : IsPlace place) (hlocate : locateElement place v = .ok place') :
    IsPlace place' := by
  unfold Static.locateElement at hlocate
  split at hlocate
  case h_2 =>
    cases hlocate
    exact h
  case h_1 element =>
    split at hlocate
    case h_1 =>
      by_cases hknown : place.has "function"
      · rw [if_pos hknown] at hlocate
        cases hlocate
        exact h
      · rw [if_neg hknown] at hlocate
        -- the element of a function may tell a contract, too
        obtain ⟨contract, -, hlocate⟩ := exists_of_bind_eq_ok hlocate
        have hfunction : IsPlace (place.put "function" (fieldOr element "name" (.text ""))) :=
          h.put (by decide) _
        cases contract with
        | none =>
          cases hlocate
          exact hfunction
        | some contract =>
          cases hlocate
          exact hfunction.putContract contract
    case h_2 =>
      cases hlocate
      exact h.putContract _
    case h_3 =>
      cases hlocate
      exact h

theorem IsPlace.foldlM_locateElement {elements : List Value} (h : IsPlace place)
    (hlocate : elements.foldlM Static.locateElement place = .ok place') : IsPlace place' := by
  induction elements generalizing place with
  | nil =>
    cases hlocate
    exact h
  | cons e elements ih =>
    obtain ⟨next, hnext, hlocate⟩ := exists_of_bind_eq_ok hlocate
    exact ih (h.locateElement hnext) hlocate

theorem isPlace_of_location (h : location v = .ok place) : IsPlace place := by
  unfold location at h
  split at h
  case h_1 elements =>
    obtain ⟨all, hall, h⟩ := exists_of_bind_eq_ok h
    cases h
    have hempty : IsPlace [] := fun name hname => absurd hname List.not_mem_nil
    intro name hname
    exact hempty.foldlM_locateElement hall name ((List.filter_sublist.map Prod.fst).subset hname)
  case h_2 =>
    cases h
    exact fun name hname => absurd hname List.not_mem_nil

/-! ### The fields of evidence -/

/-- The names of the fields in the evidence of a tool's findings. -/
def Tool.evidenceNames : Tool → List String
  | .slither => ["source", "check", "impact", "confidence", "elements", "function", "contract"]
  | .mythril => ["source", "title", "severity", "type", "swc_id", "address", "contract", "function"]

theorem Tool.frameId_notMem_evidenceNames (t : Tool) : "frame_id" ∉ t.evidenceNames := by
  cases t <;> decide

/-- The evidence is one object whose fields have the names of a tool. -/
def Tool.HasEvidence (t : Tool) (f : Finding) : Prop :=
  ∃ e, f.evidence = .object e ∧ ∀ name ∈ e.map Prod.fst, name ∈ t.evidenceNames

theorem hasEvidence_slitherFinding (h : slitherFinding entry name = .ok f) :
    Tool.slither.HasEvidence f := by
  unfold slitherFinding at h
  dsimp only at h
  split at h
  case h_2 => exact nomatch h
  obtain ⟨description, -, h⟩ := exists_of_bind_eq_ok h
  obtain ⟨place, hplace, h⟩ := exists_of_bind_eq_ok h
  cases h
  refine ⟨_, rfl, fun name hname => ?_⟩
  have hname := Fields.mem_names_ofPairs.mp hname
  rw [List.map_append, List.mem_append] at hname
  have hsplit : Tool.slither.evidenceNames =
      ["source", "check", "impact", "confidence", "elements"] ++ ["function", "contract"] := rfl
  rw [hsplit, List.mem_append]
  exact hname.imp id (isPlace_of_location hplace name)

theorem hasEvidence_mythrilFinding (h : mythrilFinding entry name = .ok f) :
    Tool.mythril.HasEvidence f := by
  unfold mythrilFinding at h
  dsimp only at h
  split at h
  case h_2 => exact nomatch h
  obtain ⟨description, -, h⟩ := exists_of_bind_eq_ok h
  cases h
  refine ⟨_, rfl, fun name hname => ?_⟩
  rw [List.map_append, List.mem_append] at hname
  have hsplit : Tool.mythril.evidenceNames =
      ["source", "title", "severity", "type"] ++ mythrilDetails.map Prod.snd := rfl
  rw [hsplit, List.mem_append]
  refine hname.imp id fun hdetails => ?_
  obtain ⟨detail, hdetail, rfl⟩ := List.mem_map.mp hdetails
  obtain ⟨⟨given, shown⟩, hmem, hstated⟩ := List.mem_filterMap.mp hdetail
  split at hstated
  · cases hstated
    exact List.mem_map.mpr ⟨_, hmem, rfl⟩
  · exact nomatch hstated

theorem Tool.hasEvidence_finding (h : t.finding entry name = .ok f) : t.HasEvidence f := by
  cases t with
  | slither => exact hasEvidence_slitherFinding h
  | mythril => exact hasEvidence_mythrilFinding h

theorem Tool.hasEvidence_of_ofEntry (h : t.ofEntry v = .ok (some f)) : t.HasEvidence f := by
  unfold Tool.ofEntry at h
  split at h
  case h_2 => exact nomatch h
  case h_1 fields =>
    by_cases hname : (Fields.get fields t.nameField).truthy
    · rw [if_pos hname] at h
      obtain ⟨text, -, h⟩ := exists_of_bind_eq_ok h
      obtain ⟨g, hg, h⟩ := exists_of_bind_eq_ok h
      cases h
      exact Tool.hasEvidence_finding hg
    · rw [if_neg hname] at h
      exact nomatch h

/-- Numbering changes no evidence. -/
theorem Tool.exists_of_mem_renumber {left : Nat} (h : f ∈ t.renumber left fs) :
    ∃ g ∈ fs, f.evidence = g.evidence := by
  obtain ⟨k, hk, rfl⟩ := List.mem_mapIdx.mp h
  exact ⟨fs[k], List.getElem_mem hk, rfl⟩

theorem Tool.hasEvidence_of_ofEntries {entries : List Value} (h : t.ofEntries entries = .ok fs)
    (hf : f ∈ fs) : t.HasEvidence f := by
  obtain ⟨found, hfound, rfl⟩ := exists_found_of_ofEntries h
  obtain ⟨g, hg, hevidence⟩ := exists_of_mem_renumber hf
  have hmem : some g ∈ found := by simpa using hg
  obtain ⟨entry, -, hentry⟩ := exists_of_mem_mapM hfound hmem
  obtain ⟨e, he, hnames⟩ := hasEvidence_of_ofEntry hentry
  exact ⟨e, hevidence.trans he, hnames⟩

/-! ### Findings of sources -/

/-- What is found in a source has evidence of the tool with its name. -/
theorem exists_hasEvidence_of_mem_foundIn {s : String × Value} (h : f ∈ foundIn s) :
    ∃ t, Tool.ofName? s.1 = some t ∧ t.HasEvidence f := by
  obtain ⟨t, ht, hnormalize⟩ := exists_tool_of_foundIn (List.ne_nil_of_mem h)
  obtain ⟨entries, hentries⟩ := Tool.exists_ofEntries hnormalize
  exact ⟨t, ht, Tool.hasEvidence_of_ofEntries hentries h⟩

/-- **A finding of a tool names no frame**, whatever the report of the tool says. -/
theorem frameId_of_mem_found {sources : Fields} (h : f ∈ (found sources).flatten) :
    f.frameId = .null := by
  obtain ⟨fs, hfs, hf⟩ := List.mem_flatten.mp h
  obtain ⟨s, -, rfl⟩ := List.mem_map.mp hfs
  obtain ⟨t, -, e, he, hnames⟩ := exists_hasEvidence_of_mem_foundIn hf
  rw [Finding.frameId, he]
  exact Fields.get_of_notMem fun hmem => t.frameId_notMem_evidenceNames (hnames _ hmem)

end TraceAudit.Static
