import TraceAudit.Analysis
import TraceAudit.Proofs.Detector.Spelling

/-!
# Reports and the spelling of words

Nodes spell words differently: with or without a mark, in upper or lower case, with or without
zeros in front. A report shows nothing of that. Traces that differ in the spelling of canonical
words only are analyzed to equal reports, notes included (`analyze_respelled`), or are refused for
the same reason.

Both traces have the same normal form, so the proof compares each of them with its normal form.
-/

namespace TraceAudit

open List (Forall₂)

variable {steps steps' : List Step}

/-! ### The parts of a report -/

/-- Steps that are respelled are ingested as steps that are respelled. -/
theorem Step.exists_ofEntriesFrom_of_respelled (h : Forall₂ Respelled steps steps')
    (order : StackOrder) (i : Nat) :
    ∃ found found', ofEntriesFrom order i (steps.map .step) = .ok found ∧
      ofEntriesFrom order i (steps'.map .step) = .ok found' ∧ Forall₂ Respelled found found' := by
  induction h generalizing i with
  | nil => exact ⟨[], [], rfl, rfl, .nil⟩
  | @cons s s' steps steps' hs _ ih =>
    obtain ⟨found, found', hfound, hfound', hrest⟩ := ih (i + 1)
    refine ⟨{ s with index := i } :: found, { s' with index := i } :: found', ?_, ?_,
      .cons { hs with index := rfl } hrest⟩
    · rw [List.map_cons, ofEntriesFrom, hfound]
      rfl
    · rw [List.map_cons, ofEntriesFrom, hfound']
      rfl

theorem OpcodeProfile.top_map_normal (steps : List Step) (limit : Int) :
    top (steps.map Step.normal) limit = top steps limit := by
  have hofOp : ofOp (steps.map Step.normal) = ofOp steps := by
    funext op
    have hown : (steps.map Step.normal).filter (fun s => s.op == op) =
        (steps.filter fun s => s.op == op).map Step.normal := List.filter_map
    rw [ofOp, ofOp, hown, List.length_map, List.foldr_map]
    rfl
  have hops : (steps.map Step.normal).map Step.op = steps.map Step.op := List.map_map
  rw [top, top, ranked, ranked, hofOp, hops]

theorem Detector.runAll_normal {c : Context} {ds : List Detector} (hds : ∀ d ∈ ds, d ∈ catalogue)
    (h : c.Canonical) (ids : IdSequence) : runAll c.normal ids ds = runAll c ids ds := by
  induction ds generalizing ids with
  | nil => rfl
  | cons d ds ih =>
    have hmem := hds d List.mem_cons_self
    have hd : d.run c.normal ids = d.run c ids := by
      rw [run_of_follows (follows_scan hmem c), run_of_follows (follows_scan hmem c.normal),
        scan_normal hmem h]
    rw [runAll, runAll, hd]
    simp only [ih fun d hd => hds d (List.mem_cons_of_mem _ hd)]

theorem Report.frameNotes_map_normal (h : ∀ s ∈ steps, s.Canonical) (callFrames : CallFrames)
    (issues : List FrameIssue) :
    frameNotes (steps.map Step.normal) callFrames issues = frameNotes steps callFrames issues := by
  have hplain := Nesting.unreadableWords_eq_nil fun s hs => Step.unreadable_memory (h s hs)
  have hnormal : CallFrames.unreadableWords (steps.map Step.normal) = [] :=
    Nesting.unreadableWords_eq_nil <| List.forall_mem_map.mpr fun s hs =>
      Step.unreadable_memory_normal (h s hs)
  rw [frameNotes, frameNotes, hplain, hnormal, List.isEmpty_map, List.length_map]

/-- A report on steps in normal form is the report on the steps. -/
theorem Report.assemble_map_normal {ds : List Detector} (hds : ∀ d ∈ ds, d ∈ Detector.catalogue)
    (h : ∀ s ∈ steps, s.Canonical) (callFrames : Option CallFrames) (settings : Settings)
    (sources : Fields) :
    assemble (steps.map Step.normal) callFrames settings ds sources =
      assemble steps callFrames settings ds sources := by
  -- the steps occur in what the detectors see, in the notes on frames, in the profile and by number
  have hruns := Detector.runAll_normal (c := ⟨steps.toArray, callFrames, settings⟩) hds h
    { label := "VUL" }
  rw [Context.normal, List.map_toArray] at hruns
  have hnotes := Report.frameNotes_map_normal h
  have htop := OpcodeProfile.top_map_normal steps
  simp only [assemble, ofRuns, List.isEmpty_map, List.length_map, hruns, hnotes, htop]

/-! ### Analyses -/

/-- Traces of which each step and each word is respelled have one report. -/
theorem Report.assemble_respelled {ds : List Detector} (hds : ∀ d ∈ ds, d ∈ Detector.catalogue)
    (h : Forall₂ Step.Respelled steps steps') (callFrames : Option CallFrames) (settings : Settings)
    (sources : Fields) :
    assemble steps callFrames settings ds sources =
      assemble steps' callFrames settings ds sources := by
  have hcanonical := forall_left_of_forall₂ h fun _ _ hs => hs.canonical_left
  have hcanonical' := forall_left_of_forall₂ h.flip fun _ _ hs => hs.symm.canonical_left
  have hnormal := map_eq_of_forall₂ h fun _ _ hs => Step.normal_eq_of_respelled hs
  rw [← assemble_map_normal hds hcanonical, hnormal, assemble_map_normal hds hcanonical']

theorem CallFrames.build_respelled (h : Forall₂ Step.Respelled steps steps') (tx : Transaction) :
    build steps tx = build steps' tx := by
  have hcanonical := forall_left_of_forall₂ h fun _ _ hs => hs.canonical_left
  have hcanonical' := forall_left_of_forall₂ h.flip fun _ _ hs => hs.symm.canonical_left
  have hnormal := map_eq_of_forall₂ h fun _ _ hs => Step.normal_eq_of_respelled hs
  rw [← Nesting.build_map_normal hcanonical, hnormal, Nesting.build_map_normal hcanonical']

/-- **The spelling of words does not matter.** Of two traces that are equal but for the spelling of
their words, all of them canonical, an analysis with detectors of this library makes the same
report, whatever the transaction, the sources and the settings are, and with frames or without. If
it refuses one of them, it refuses the other for the same reason. -/
theorem analyze_respelled (r : AnalysisRequest) (steps steps' : List Step)
    (hdetectors : ∀ d ∈ r.detectors, d ∈ Detector.catalogue)
    (h : Forall₂ Step.Respelled steps steps') :
    analyze { r with trace := .entries (steps.map .step) } =
      analyze { r with trace := .entries (steps'.map .step) } := by
  obtain ⟨found, found', hfound, hfound', hsame⟩ :=
    Step.exists_ofEntriesFrom_of_respelled h r.order 0
  have hingest : Step.ingest r.order (.entries (steps.map .step)) = .ok found := hfound
  have hingest' : Step.ingest r.order (.entries (steps'.map .step)) = .ok found' := hfound'
  have hbuild := CallFrames.build_respelled hsame
  have hassemble := Report.assemble_respelled hdetectors hsame
  rw [analyze, analyze, hingest, hingest']
  simp only [TraceSource.isGiven, hsame.length_eq, hbuild, hassemble, bind, Except.bind]

/-- A delegated call to a pushed address and a write to storage behind it. -/
def delegatingTrace (gas target start size slot value : String) : List Step := [
  ⟨0, 0, "PUSH20", 100, 3, 1, [], [value]⟩,
  ⟨1, 21, "GAS", 97, 2, 1, [target], [value]⟩,
  ⟨2, 22, "DELEGATECALL", 95, 40, 1, [gas, target, start, size, start, size], [value]⟩,
  ⟨3, 0, "STOP", 30, 0, 2, [], []⟩,
  ⟨4, 23, "SSTORE", 50, 20, 1, [slot, value], [value]⟩,
  ⟨5, 24, "STOP", 30, 0, 1, [], [value]⟩]

/-- Traces that differ in their words are respelled if the words are. -/
theorem delegatingTrace_respelled {gas gas' target target' start start' size size' slot slot' value
    value' : String} (hgas : Word.Respelled gas gas') (htarget : Word.Respelled target target')
    (hstart : Word.Respelled start start') (hsize : Word.Respelled size size')
    (hslot : Word.Respelled slot slot') (hvalue : Word.Respelled value value') :
    Forall₂ Step.Respelled (delegatingTrace gas target start size slot value)
      (delegatingTrace gas' target' start' size' slot' value') := by
  have hmemory : Forall₂ Word.Respelled [value] [value'] := .cons hvalue .nil
  have hcall : Forall₂ Word.Respelled [gas, target, start, size, start, size]
      [gas', target', start', size', start', size'] :=
    .cons hgas (.cons htarget (.cons hstart (.cons hsize (.cons hstart (.cons hsize .nil)))))
  exact .cons ⟨rfl, rfl, rfl, rfl, rfl, rfl, .nil, hmemory⟩ <|
    .cons ⟨rfl, rfl, rfl, rfl, rfl, rfl, .cons htarget .nil, hmemory⟩ <|
    .cons ⟨rfl, rfl, rfl, rfl, rfl, rfl, hcall, hmemory⟩ <|
    .cons ⟨rfl, rfl, rfl, rfl, rfl, rfl, .nil, .nil⟩ <|
    .cons ⟨rfl, rfl, rfl, rfl, rfl, rfl, .cons hslot (.cons hvalue .nil), hmemory⟩ <|
    .cons ⟨rfl, rfl, rfl, rfl, rfl, rfl, .nil, hmemory⟩ .nil

/-- A trace with marks and zeros in front of its words. -/
def markedTrace : List Step :=
  delegatingTrace "0x64" "0x00BEEF" "0X1C" "0x04" "0xa" "0xfF"

/-- The same trace as another node writes it. -/
def bareTrace : List Step :=
  delegatingTrace "64" "beef" "01c" "4" "A" "0XFF"

theorem analyze_respelled_delegatingTrace :
    ∃ report, analyze { trace := .entries (markedTrace.map .step) } = .ok report ∧
      analyze { trace := .entries (bareTrace.map .step) } = .ok report ∧
      report.findings.length = 3 := by
  have hrespelled : Forall₂ Step.Respelled markedTrace bareTrace :=
    delegatingTrace_respelled ⟨by decide, by decide, by decide⟩ ⟨by decide, by decide, by decide⟩
      ⟨by decide, by decide, by decide⟩ ⟨by decide, by decide, by decide⟩
      ⟨by decide, by decide, by decide⟩ ⟨by decide, by decide, by decide⟩
  have hsame := analyze_respelled { trace := .value .null } markedTrace bareTrace
    (fun d hd => hd) hrespelled
  have hlength : (analyze { trace := .entries (markedTrace.map .step) }).toOption.any
      (fun report => report.findings.length = 3) := by decide +kernel
  obtain ⟨report, hreport, hlength⟩ := exists_of_any_toOption hlength
  exact ⟨report, hreport, hsame.symm.trans hreport, of_decide_eq_true hlength⟩

end TraceAudit
