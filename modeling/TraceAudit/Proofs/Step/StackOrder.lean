import TraceAudit.Proofs.Fields
import TraceAudit.Proofs.Step.Refusal

/-!
# The order of stacks

Nodes write stacks bottom first, while steps hold them top first. Ingestion turns a stack over if it
is told that the bottom comes first, and it does so to what a node wrote only:

* an object with its stack bottom first leads to the same step as the object with this stack turned
  over and top first (`agree_ofEntry_turned`);
* steps that have been ingested come through a second ingestion unchanged, whatever order it is told
  (`ofEntriesFrom_map_step`).

So the order of stacks is a matter of ingestion alone. An analysis of steps that have been ingested
is the analysis of what they were made of (`stack_order_resolved_once`).

Words are read in the order in which they are written. If several words of a stack cannot be written
as text, which of them is met first depends on that order, and so does the fault if one of them is
nested too deeply (`HasDeepWord`). Whether a sequence is refused does not.
-/

namespace TraceAudit

/-- An element with the stack that a node wrote turned over. -/
def TraceEntry.turned : TraceEntry → TraceEntry
  | .raw (.object log) =>
    match Fields.get log "stack" with
    | .list words => .raw (.object (Fields.put log "stack" (.list words.reverse)))
    | _ => .raw (.object log)
  | e => e

/-- A step, or an object whose stack is a list or missing. -/
def TraceEntry.IsLog : TraceEntry → Prop
  | .step _ => True
  | .raw (.object log) =>
    Fields.get log "stack" = .null ∨ ∃ words, Fields.get log "stack" = .list words
  | .raw _ => False

/-- In the stack of one of the objects is a word that is nested too deeply to be written. -/
def TraceEntry.HasDeepWord (es : List TraceEntry) : Prop :=
  ∃ log words v, .raw (.object log) ∈ es ∧ Fields.get log "stack" = .list words ∧ v ∈ words ∧
    Step.wordOf v = .error .tooDeep

namespace Step

variable {order order' : StackOrder} {index : Int} {log : Fields} {e : TraceEntry}
  {es : List TraceEntry} {steps : List Step} {position : Nat}

/-! ### Stacks that are turned over -/

/-- The step of an object whose stack is in order already. -/
def ofLogWith (index : Int) (log : Fields) (stack : List String) : Except Fault Step := do
  let memory ← wordsOf (log.get "memory")
  let pc ← Quantity.ofValue (log.get "pc")
  let op ← ((log.get "op").orElse (.text "UNKNOWN")).display?
  let gas ← Quantity.ofValue (log.get "gas")
  let gasCost ← Quantity.ofValue (log.get "gasCost")
  let depth ← Quantity.ofValue (log.get "depth")
  return { index, pc, gas, gasCost, depth, op := Text.upper op, stack, memory }

/-- The order concerns the stack alone. -/
theorem ofLog_eq (index : Int) (log : Fields) (order : StackOrder) :
    ofLog index log order =
      wordsOf (log.get "stack") >>= fun words => ofLogWith index log (orient order words) := by
  simp only [ofLog, ofLogWith, wordsOf, bind_assoc]

/-- Another stack in an object does not concern the other fields. -/
theorem ofLogWith_put (index : Int) (log : Fields) (v : Value) (stack : List String) :
    ofLogWith index (log.put "stack" v) stack = ofLogWith index log stack := by
  have hget : ∀ {name : String}, name ≠ "stack" → (log.put "stack" v).get name = log.get name :=
    fun hname => Fields.get_put_of_ne hname log v
  rw [ofLogWith, ofLogWith, hget (by decide), hget (by decide), hget (by decide),
    hget (by decide), hget (by decide), hget (by decide)]

theorem wordsOf_list (words : List Value) : wordsOf (.list words) = words.mapM wordOf := by
  rw [wordsOf, elements_list]
  rfl

/-- The words of a stack that is turned over are its words, turned over. -/
theorem agree_wordsOf_reverse {deep : Prop} {words : List Value}
    (hdeep : ¬deep → ∀ v ∈ words, wordOf v ≠ .error .tooDeep) :
    Agree deep (wordsOf (.list words.reverse)) (List.reverse <$> wordsOf (.list words)) := by
  rw [wordsOf_list, wordsOf_list]
  refine agree_mapM_reverse .badValue fun hnot v hv fault hfault => ?_
  have hdisplay : v.display? = .error fault := by
    rw [wordOf] at hfault
    split at hfault
    · cases hfault
    · exact hfault
  rcases Value.eq_or_eq_of_display? hdisplay with rfl | rfl
  · rfl
  · exact absurd hfault (hdeep hnot v hv)

/-- An object and the object with its stack turned over lead to one step, if the orders are
opposite. -/
theorem agree_ofLog_put_reverse {deep : Prop} {words : List Value} (index : Int)
    (h : log.get "stack" = .list words)
    (hdeep : ¬deep → ∀ v ∈ words, wordOf v ≠ .error .tooDeep) :
    Agree deep (ofLog index (log.put "stack" (.list words.reverse)) .topFirst)
      (ofLog index log .bottomFirst) := by
  have hagree := (agree_wordsOf_reverse hdeep).bind fun ws =>
    Agree.refl (ofLogWith index log (orient .topFirst ws))
  rw [bind_map_left] at hagree
  simp only [ofLog_eq, ofLogWith_put, Fields.get_put_self, h]
  exact hagree

/-- **One stack, two orders.** A stack that is turned over and top first is the same as the stack
bottom first. -/
theorem agree_ofEntry_turned {deep : Prop} (he : e.IsLog)
    (hdeep : TraceEntry.HasDeepWord [e] → deep) :
    Agree deep (ofEntry .topFirst position e.turned) (ofEntry .bottomFirst position e) := by
  cases e with
  | step s => exact .refl _
  | raw v =>
    cases v with
    | object log =>
      rcases he with hnull | ⟨words, hwords⟩
      · have hturned : (TraceEntry.raw (.object log)).turned = .raw (.object log) := by
          rw [TraceEntry.turned, hnull]
        rw [hturned, ofEntry, ofEntry, ofLog_eq, ofLog_eq, hnull]
        exact .refl _
      · have hturned : (TraceEntry.raw (.object log)).turned =
            .raw (.object (Fields.put log "stack" (.list words.reverse))) := by
          rw [TraceEntry.turned, hwords]
        rw [hturned]
        refine agree_ofLog_put_reverse position hwords fun hnot v hv hfault => hnot (hdeep ?_)
        exact ⟨log, words, v, List.mem_singleton_self _, hwords, hv, hfault⟩
    | _ => exact he.elim

theorem agree_ofEntries_turned (hes : ∀ e ∈ es, e.IsLog) :
    Agree (TraceEntry.HasDeepWord es) (ofEntries .topFirst (es.map TraceEntry.turned))
      (ofEntries .bottomFirst es) := by
  have hfrom : ∀ {deep : Prop}, (TraceEntry.HasDeepWord es → deep) → ∀ position,
      Agree deep (ofEntriesFrom .topFirst position (es.map TraceEntry.turned))
        (ofEntriesFrom .bottomFirst position es) := by
    intro deep hdeep
    induction es with
    | nil => exact fun _ => .refl _
    | cons e es ih =>
      obtain ⟨he, hes⟩ := List.forall_mem_cons.mp hes
      have hfirst : TraceEntry.HasDeepWord [e] → deep := fun ⟨log, words, v, hmem, h⟩ =>
        hdeep ⟨log, words, v, List.mem_cons.mpr (.inl (List.mem_singleton.mp hmem)), h⟩
      have hrest : TraceEntry.HasDeepWord es → deep := fun ⟨log, words, v, hmem, h⟩ =>
        hdeep ⟨log, words, v, List.mem_cons_of_mem e hmem, h⟩
      intro position
      rw [List.map_cons, ofEntriesFrom, ofEntriesFrom]
      refine (agree_ofEntry_turned he hfirst).bind fun s => ?_
      exact (ih hes hrest (position + 1)).bind fun rest => .refl _
  exact hfrom id 0

/-! ### Steps that are ingested again -/

/-- **A second ingestion changes nothing**, as the indices are positions already. -/
theorem ofEntriesFrom_map_step (h : ofEntriesFrom order position es = .ok steps) :
    ofEntriesFrom order' position (steps.map .step) = .ok steps := by
  induction es generalizing position steps with
  | nil =>
    cases h
    rfl
  | cons e es ih =>
    obtain ⟨s, hs, h⟩ := exists_of_bind_eq_ok h
    obtain ⟨rest, hrest, h⟩ := exists_of_bind_eq_ok h
    cases h
    have hindex : { s with index := (position : Int) } = s := by
      rw [← index_of_ofEntry hs]
    rw [List.map_cons, ofEntriesFrom, ih hrest, ofEntry, hindex]
    rfl

end Step

/-! ### Analyses -/

/-- An analysis depends on its trace by way of the steps that are ingested, and of whether anything
was handed over. -/
theorem analyze_eq_of_ingest {r : AnalysisRequest} {trace : TraceSource} {order : StackOrder}
    (hingest : Step.ingest order trace = Step.ingest r.order r.trace)
    (hgiven : trace.isGiven = r.trace.isGiven) :
    analyze { r with trace, order } = analyze r := by
  have hcontext : ({ r with trace, order } : AnalysisRequest).context = r.context := by
    simp only [AnalysisRequest.context, AnalysisRequest.framesOf, hingest]
  have hreport : ∀ c sources, ({ r with trace, order } : AnalysisRequest).reportOn c sources =
      r.reportOn c sources := by
    intro c sources
    simp only [AnalysisRequest.reportOn, hgiven]
    rfl
  simp only [analyze_eq, hcontext, hreport]
  rfl

/-- **The order of stacks is resolved once.** A sequence of objects and steps leads to the same
steps as the sequence with the stacks of its objects turned over under the opposite order, and it is
refused for the same fault unless a word is nested too deeply. The steps that it leads to come
through any further ingestion unchanged, so an analysis of them is the analysis of the sequence. -/
theorem stack_order_resolved_once {es : List TraceEntry} (hes : ∀ e ∈ es, e.IsLog) :
    (∀ steps, Step.ofSource .bottomFirst (.entries es) = .ok steps ↔
        Step.ofSource .topFirst (.entries (es.map TraceEntry.turned)) = .ok steps) ∧
      (¬TraceEntry.HasDeepWord es → Step.ofSource .bottomFirst (.entries es) =
        Step.ofSource .topFirst (.entries (es.map TraceEntry.turned))) ∧
      ∀ order steps, Step.ofSource order (.entries es) = .ok steps → ∀ order',
        Step.ofSource order' (.entries (steps.map .step)) = .ok steps ∧
        ∀ r : AnalysisRequest,
          analyze { r with trace := .entries (steps.map .step), order := order' } =
            analyze { r with trace := .entries es, order } := by
  have hturned := Step.agree_ofEntries_turned hes
  refine ⟨fun steps => (hturned.ok_iff steps).symm, fun hdeep => (hturned.eq hdeep).symm,
    fun order steps h order' => ?_⟩
  have hagain : Step.ofSource order' (.entries (steps.map .step)) = .ok steps :=
    Step.ofEntriesFrom_map_step h
  have hingest : Step.ingest order' (.entries (steps.map .step)) =
      Step.ingest order (.entries es) :=
    hagain.trans h.symm
  refine ⟨hagain, fun r => ?_⟩
  exact analyze_eq_of_ingest (r := { r with trace := .entries es, order }) hingest rfl

/-- An object with a stack, a step with the index of another place, and an object without fields. -/
def mixedEntries : List TraceEntry :=
  [.raw (.object [("op", .text "sub"), ("depth", .int 1), ("stack", .list [.int 1, .text "0x2"])]),
    .step ⟨7, 4, "CALL", 900, 700, 1, ["0x5", "0x6"], []⟩,
    .raw (.object [])]

/-- The steps of the mixed entries, if stacks come bottom first. -/
def mixedSteps : List Step :=
  [⟨0, 0, "SUB", 0, 0, 1, ["0x2", "0x1"], []⟩, ⟨1, 4, "CALL", 900, 700, 1, ["0x5", "0x6"], []⟩,
    ⟨2, 0, "UNKNOWN", 0, 0, 0, [], []⟩]

theorem ofSource_mixedEntries :
    Step.ofSource .bottomFirst (.entries mixedEntries) = .ok mixedSteps :=
  rfl

/-- The stack of the object is turned over once, that of the step never, in one ingestion or two. -/
theorem stack_order_resolved_once_mixedEntries :
    Step.ofSource .topFirst (.entries (mixedEntries.map TraceEntry.turned)) = .ok mixedSteps ∧
      Step.ofSource .bottomFirst (.entries (mixedSteps.map .step)) = .ok mixedSteps ∧
      analyze { trace := .entries (mixedSteps.map .step), order := .topFirst } =
        analyze { trace := .entries mixedEntries } := by
  have hlogs : ∀ e ∈ mixedEntries, e.IsLog := by
    rw [mixedEntries, List.forall_mem_cons, List.forall_mem_cons, List.forall_mem_singleton]
    exact ⟨.inr ⟨_, rfl⟩, trivial, .inl rfl⟩
  obtain ⟨hturned, -, hagain⟩ := stack_order_resolved_once hlogs
  refine ⟨(hturned _).mp ofSource_mixedEntries, ?_, ?_⟩
  · exact (hagain _ _ ofSource_mixedEntries .bottomFirst).1
  · exact (hagain _ _ ofSource_mixedEntries .topFirst).2 { trace := .value .null }

end TraceAudit
