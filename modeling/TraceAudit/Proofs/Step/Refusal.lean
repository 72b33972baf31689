import TraceAudit.Proofs.Step.Ingest
import TraceAudit.Proofs.Value.Display

/-!
# Traces that are refused

A sequence is ingested element by element, so it is refused for its first element that cannot be
read, and for nothing else (`ofSource_refuses_iff`). An element cannot be read if it is no object;
then the trace is malformed, and the fault names the element. But an object may be unreadable, too:
if its stack or its memory is neither missing nor a sequence, if a quantity is infinite or a NaN, or
if a text has to be made of a numeral beyond the limit or of a value that is nested too deeply
(`Readable`). Such a trace is refused with a
fault of that field, and is not called malformed.
-/

namespace TraceAudit

open Decimal

/-! ### Values in fields -/

namespace Value

/-- Words for a stack or a memory: nothing at all, or a sequence of which each element can be made
into text. -/
def IsWords : Value → Prop
  | list items => ∀ v ∈ items, v.asInt? = none → v.isWritable = true
  | text _ => True
  | object _ => True
  | v => v.truthy = false

/-- A quantity that can be read, be it as zero. -/
def IsQuantity : Value → Prop
  | float x => x.isFinite = true
  | list items => (list items).isWritable = true
  | object fields => (object fields).isWritable = true
  | _ => True

end Value

namespace Step

variable {order : StackOrder} {v : Value} {log : Fields} {fault : Fault} {index : Int}

/-- The faults that the fields of an object come to. -/
def IsFieldFault (fault : Fault) : Prop :=
  fault = .wrongKind ∨ fault = .badValue ∨ fault = .overflow ∨ fault = .tooDeep

/-- The fault of a malformed trace is that of no field. -/
theorem not_isFieldFault_malformedTrace (defect : TraceDefect) :
    ¬ IsFieldFault (.malformedTrace defect) := by
  simp [IsFieldFault]

theorem exists_wordOf_iff :
    (∃ s, wordOf v = .ok s) ↔ (v.asInt? = none → v.isWritable = true) := by
  rw [wordOf]
  cases h : v.asInt? with
  | some n => exact iff_of_true ⟨_, rfl⟩ fun hnone => by cases hnone
  | none => exact Value.exists_display?_iff.trans ⟨fun hw _ => hw, fun hw => hw rfl⟩

/-- The words of a stack or a memory. -/
def wordsOf (v : Value) : Except Fault (List String) := do
  (← elements v).mapM wordOf

/-- Texts are words of a stack or a memory. -/
theorem exists_mapM_wordOf_text (texts : List String) :
    ∃ ws, (texts.map Value.text).mapM wordOf = .ok ws := by
  refine exists_mapM_eq_ok_iff.mpr fun v hv => ?_
  obtain ⟨s, -, rfl⟩ := List.mem_map.mp hv
  exact ⟨s, rfl⟩

theorem elements_list (items : List Value) : elements (.list items) = .ok items := by
  cases items with
  | nil => rfl
  | cons item items => rfl

theorem elements_object (fields : Fields) :
    elements (.object fields) = .ok ((fields.map Prod.fst).map Value.text) := by
  rw [List.map_map]
  cases fields with
  | nil => rfl
  | cons field fields => rfl

theorem elements_text (s : String) :
    elements (.text s) = .ok ((s.toList.map String.singleton).map Value.text) := by
  rw [List.map_map]
  by_cases h : s = ""
  · rw [h]
    rfl
  · have htruthy : (Value.text s).truthy = true := by simpa [Value.truthy] using h
    unfold elements
    rw [htruthy]
    rfl

/-- What is no sequence makes words only if it is not given, and then none. -/
theorem exists_wordsOf_iff_of_elements
    (h : elements v = if !v.truthy then .ok [] else .error .wrongKind) :
    (∃ ws, wordsOf v = .ok ws) ↔ v.truthy = false := by
  rw [wordsOf, h]
  cases v.truthy with
  | false => exact iff_of_true ⟨[], rfl⟩ rfl
  | true =>
    refine iff_of_false ?_ (by decide)
    rintro ⟨ws, h⟩
    cases h

theorem exists_wordsOf_iff : (∃ ws, wordsOf v = .ok ws) ↔ v.IsWords := by
  cases v with
  | list items =>
    rw [wordsOf, elements_list]
    exact exists_mapM_eq_ok_iff.trans (forall₂_congr fun _ _ => exists_wordOf_iff)
  | text s =>
    rw [wordsOf, elements_text]
    exact iff_of_true (exists_mapM_wordOf_text _) trivial
  | object fields =>
    rw [wordsOf, elements_object]
    exact iff_of_true (exists_mapM_wordOf_text _) trivial
  | null => exact exists_wordsOf_iff_of_elements rfl
  | bool b => exact exists_wordsOf_iff_of_elements rfl
  | int n => exact exists_wordsOf_iff_of_elements rfl
  | float x => exact exists_wordsOf_iff_of_elements rfl

/-- A quantity is made of a list or an object by way of its display. -/
theorem exists_display?_bind_iff (f : String → Int) :
    (∃ n, (v.display? >>= fun s => .ok (f s)) = .ok n) ↔ v.isWritable = true :=
  (exists_bind_eq_ok_iff fun s => iff_of_true ⟨f s, rfl⟩ trivial).trans
    ((and_iff_left trivial).trans Value.exists_display?_iff)

theorem exists_quantity_iff : (∃ n, Quantity.ofValue v = .ok n) ↔ v.IsQuantity := by
  cases v with
  | float x =>
    rw [Quantity.ofValue, Binary64.truncate?, Value.IsQuantity]
    cases hfinite : x.isFinite with
    | true => exact iff_of_true ⟨_, rfl⟩ rfl
    | false =>
      refine iff_of_false ?_ Bool.false_ne_true
      rintro ⟨n, h⟩
      cases h
  | list items => exact exists_display?_bind_iff _
  | object fields => exact exists_display?_bind_iff _
  | _ => exact iff_of_true ⟨_, rfl⟩ trivial

/-! ### Objects -/

/-- An object of which a step can be made. Missing fields do no harm. -/
structure Readable (log : Fields) : Prop where
  stack : (log.get "stack").IsWords
  memory : (log.get "memory").IsWords
  pc : (log.get "pc").IsQuantity
  op : (log.get "op").isWritable = true
  gas : (log.get "gas").IsQuantity
  gasCost : (log.get "gasCost").IsQuantity
  depth : (log.get "depth").IsQuantity

/-- A name that is not given is writable, like the one that is put in its place. -/
theorem exists_display?_orElse_iff (s : String) :
    (∃ t, (v.orElse (.text s)).display? = .ok t) ↔ v.isWritable = true := by
  rw [Value.orElse]
  cases htruthy : v.truthy with
  | true => exact Value.exists_display?_iff
  | false =>
    refine iff_of_true ⟨s, rfl⟩ ?_
    cases v with
    | int n =>
      obtain rfl : n = 0 := by simpa [Value.truthy] using htruthy
      rfl
    | list items =>
      obtain rfl : items = [] := by simpa [Value.truthy] using htruthy
      rfl
    | object fields =>
      obtain rfl : fields = [] := by simpa [Value.truthy] using htruthy
      rfl
    | _ => rfl

/-- **A step is made of an object exactly if each of its fields can be read.** -/
theorem exists_ofLog_iff : (∃ s, ofLog index log order = .ok s) ↔ Readable log := by
  have hparts : (∃ s, ofLog index log order = .ok s) ↔
      (∃ ws, wordsOf (log.get "stack") = .ok ws) ∧ (∃ ws, wordsOf (log.get "memory") = .ok ws) ∧
      (∃ n, Quantity.ofValue (log.get "pc") = .ok n) ∧
      (∃ s, ((log.get "op").orElse (.text "UNKNOWN")).display? = .ok s) ∧
      (∃ n, Quantity.ofValue (log.get "gas") = .ok n) ∧
      (∃ n, Quantity.ofValue (log.get "gasCost") = .ok n) ∧
      (∃ n, Quantity.ofValue (log.get "depth") = .ok n) ∧ True := by
    rw [ofLog, ← bind_assoc]
    refine exists_bind_eq_ok_iff fun stack => ?_
    rw [← bind_assoc]
    refine exists_bind_eq_ok_iff fun memory => ?_
    refine exists_bind_eq_ok_iff fun pc => ?_
    refine exists_bind_eq_ok_iff fun op => ?_
    refine exists_bind_eq_ok_iff fun gas => ?_
    refine exists_bind_eq_ok_iff fun gasCost => ?_
    exact exists_bind_eq_ok_iff fun depth => iff_of_true ⟨_, rfl⟩ trivial
  rw [hparts]
  simp only [exists_wordsOf_iff, exists_quantity_iff, exists_display?_orElse_iff]
  exact ⟨fun ⟨h₁, h₂, h₃, h₄, h₅, h₆, h₇, _⟩ => ⟨h₁, h₂, h₃, h₄, h₅, h₆, h₇⟩,
    fun h => ⟨h.stack, h.memory, h.pc, h.op, h.gas, h.gasCost, h.depth, trivial⟩⟩

/-! ### The faults of fields -/

theorem failsOnly_display? (v : Value) : FailsOnly IsFieldFault v.display? :=
  v.failsOnly_display? (.inr (.inl rfl)) (.inr (.inr (.inr rfl)))

theorem failsOnly_wordOf (v : Value) : FailsOnly IsFieldFault (wordOf v) := by
  unfold wordOf
  split
  · exact .ok _
  · exact failsOnly_display? v

theorem failsOnly_wordsOf (v : Value) : FailsOnly IsFieldFault (wordsOf v) := by
  refine FailsOnly.bind ?_ fun words => FailsOnly.mapM fun v _ => failsOnly_wordOf v
  unfold elements
  split
  · exact .ok _
  · split
    · exact .ok _
    · exact .ok _
    · exact .ok _
    · exact .error (.inl rfl)

theorem failsOnly_quantity (v : Value) : FailsOnly IsFieldFault (Quantity.ofValue v) := by
  unfold Quantity.ofValue
  split
  · exact .ok _
  · exact .ok _
  · exact .ok _
  · split
    · exact .ok _
    · refine .error ?_
      split
      · exact .inr (.inl rfl)
      · exact .inr (.inr (.inl rfl))
  · exact (failsOnly_display? _).bind fun _ => .ok _

theorem failsOnly_ofLog : FailsOnly IsFieldFault (ofLog index log order) := by
  rw [ofLog, ← bind_assoc]
  refine (failsOnly_wordsOf _).bind fun stack => ?_
  rw [← bind_assoc]
  refine (failsOnly_wordsOf _).bind fun memory => ?_
  refine (failsOnly_quantity _).bind fun pc => ?_
  refine (failsOnly_display? _).bind fun op => ?_
  refine (failsOnly_quantity _).bind fun gas => ?_
  refine (failsOnly_quantity _).bind fun gasCost => ?_
  exact (failsOnly_quantity _).bind fun depth => .ok _

/-! ### Sequences -/

/-- The elements that a value has as a sequence of steps. -/
def partsOf? : Value → Option (List Value)
  | .null => some []
  | .list items => some items
  | .object fields => some (fields.map fun f => .text f.1)
  | _ => none

/-- An element of which a step can be made. -/
def IsReadable : Value → Prop
  | .object log => Readable log
  | _ => False

/-- The element `v` stands at position `i`, and it is the first that cannot be read. -/
def FirstUnreadable (parts : List Value) (i : Nat) (v : Value) : Prop :=
  parts[i]? = some v ∧ ¬ IsReadable v ∧ ∀ (j : Nat) w, j < i → parts[j]? = some w → IsReadable w

variable {parts : List Value} {position i : Nat} {entries : List TraceEntry} {steps : List Step}

theorem exists_ofEntry_iff : (∃ s, ofEntry order position (.raw v) = .ok s) ↔ IsReadable v := by
  cases v with
  | object log => exact exists_ofLog_iff
  | _ =>
    refine iff_of_false ?_ id
    rintro ⟨s, h⟩
    cases h

theorem ofSource_of_partsOf?_eq_none (h : partsOf? v = none) :
    ofSource order (.value v) = .error (.malformedTrace .noSequence) := by
  cases v with
  | null => cases h
  | list items => cases h
  | object fields => cases h
  | _ => rfl

theorem ofSource_of_partsOf?_eq_some (h : partsOf? v = some parts) :
    ofSource order (.value v) = ofEntries order (parts.map .raw) := by
  cases v with
  | null =>
    cases h
    rfl
  | list items =>
    cases h
    rfl
  | object fields =>
    cases h
    rw [List.map_map]
    rfl
  | _ => cases h

/-- Elements are ingested one by one, each with its position. -/
theorem ofEntriesFrom_eq_mapM (order : StackOrder) (position : Nat) (entries : List TraceEntry) :
    ofEntriesFrom order position entries =
      (entries.zipIdx position).mapM fun e => ofEntry order e.2 e.1 := by
  induction entries generalizing position with
  | nil => rfl
  | cons e entries ih =>
    rw [List.zipIdx_cons, List.mapM_cons, ← ih]
    rfl

theorem getElem?_zipIdx_map_raw {e : TraceEntry × Nat} :
    ((parts.map TraceEntry.raw).zipIdx 0)[i]? = some e ↔
      ∃ v, parts[i]? = some v ∧ (.raw v, i) = e := by
  rw [List.getElem?_zipIdx, List.getElem?_map]
  cases parts[i]? with
  | none => simp
  | some v => simp

/-- Steps are made of a sequence exactly if each of its elements can be read. -/
theorem exists_ofEntries_iff :
    (∃ steps, ofEntries order (parts.map .raw) = .ok steps) ↔ ∀ v ∈ parts, IsReadable v := by
  rw [ofEntries, ofEntriesFrom_eq_mapM, exists_mapM_eq_ok_iff]
  constructor
  · intro h v hv
    obtain ⟨i, hi⟩ := List.mem_iff_getElem?.mp hv
    exact exists_ofEntry_iff.mp
      (h _ (List.mem_of_getElem? (getElem?_zipIdx_map_raw.mpr ⟨v, hi, rfl⟩)))
  · intro h e he
    obtain ⟨i, hi⟩ := List.mem_iff_getElem?.mp he
    obtain ⟨v, hv, rfl⟩ := getElem?_zipIdx_map_raw.mp hi
    exact exists_ofEntry_iff.mpr (h v (List.mem_of_getElem? hv))

/-- A sequence is refused for its first element that cannot be read. -/
theorem ofEntries_eq_error_iff :
    ofEntries order (parts.map .raw) = .error fault ↔
      ∃ i v, FirstUnreadable parts i v ∧ ofEntry order i (.raw v) = .error fault := by
  rw [ofEntries, ofEntriesFrom_eq_mapM, mapM_eq_error_iff]
  constructor
  · rintro ⟨i, e, he, hfault, hbefore⟩
    obtain ⟨v, hv, rfl⟩ := getElem?_zipIdx_map_raw.mp he
    refine ⟨i, v, ⟨hv, fun hreadable => ?_, fun j w hj hw => ?_⟩, hfault⟩
    · exact exists_eq_error_iff.mp ⟨fault, hfault⟩ (exists_ofEntry_iff.mpr hreadable)
    · exact exists_ofEntry_iff.mp (hbefore j _ hj (getElem?_zipIdx_map_raw.mpr ⟨w, hw, rfl⟩))
  · rintro ⟨i, v, ⟨hv, -, hbefore⟩, hfault⟩
    refine ⟨i, _, getElem?_zipIdx_map_raw.mpr ⟨v, hv, rfl⟩, hfault, fun j e hj he => ?_⟩
    obtain ⟨w, hw, rfl⟩ := getElem?_zipIdx_map_raw.mp he
    exact exists_ofEntry_iff.mpr (hbefore j w hj hw)

/-- A sequence is called malformed exactly if its first element that cannot be read is no object. -/
theorem ofEntries_eq_malformed_iff {defect : TraceDefect} :
    ofEntries order (parts.map .raw) = .error (.malformedTrace defect) ↔
      ∃ i v, FirstUnreadable parts i v ∧ (∀ log, v ≠ .object log) ∧
        defect = .element i v.kindName := by
  rw [ofEntries_eq_error_iff]
  refine exists_congr fun i => exists_congr fun v => and_congr_right fun _ => ?_
  cases v with
  | object log =>
    refine iff_of_false (fun h => ?_) fun h => h.1 log rfl
    -- an object comes to the fault of one of its fields
    exact absurd (failsOnly_ofLog _ h) (not_isFieldFault_malformedTrace defect)
  | _ =>
    constructor
    · intro h
      cases h
      exact ⟨fun log => Value.noConfusion, rfl⟩
    · rintro ⟨-, rfl⟩
      rfl

/-- A sequence is refused for a field exactly if its first element that cannot be read is an object,
of which some field is unreadable. -/
theorem exists_ofEntries_eq_fieldFault_iff :
    (∃ fault, IsFieldFault fault ∧ ofEntries order (parts.map .raw) = .error fault) ↔
      ∃ i log, FirstUnreadable parts i (.object log) := by
  constructor
  · rintro ⟨fault, hkind, h⟩
    obtain ⟨i, v, hfirst, hfault⟩ := ofEntries_eq_error_iff.mp h
    cases v with
    | object log => exact ⟨i, log, hfirst⟩
    | _ =>
      cases hfault
      exact absurd hkind (not_isFieldFault_malformedTrace _)
  · rintro ⟨i, log, hfirst⟩
    have hnot : ¬ ∃ s, ofEntry order i (.raw (.object log)) = .ok s :=
      fun h => hfirst.2.1 (exists_ofEntry_iff.mp h)
    obtain ⟨fault, hfault⟩ := exists_eq_error_iff.mpr hnot
    exact ⟨fault, failsOnly_ofLog fault hfault, ofEntries_eq_error_iff.mpr ⟨i, _, hfirst, hfault⟩⟩

/-- **What is refused as a trace.** A value that is no sequence is malformed. A sequence is ingested
exactly if all of its elements are objects with readable fields, and then each element leads to one
step, whose index is its position. Otherwise the first element that is not so decides: if it is no
object, the trace is malformed, with its position and kind as the reason, and if it is an object,
the trace is refused for one of its fields. -/
theorem ofSource_refuses_iff (order : StackOrder) (v : Value) :
    (partsOf? v = none → ofSource order (.value v) = .error (.malformedTrace .noSequence)) ∧
    ∀ parts, partsOf? v = some parts →
      ((∃ steps, ofSource order (.value v) = .ok steps) ↔ ∀ p ∈ parts, IsReadable p) ∧
      (∀ steps, ofSource order (.value v) = .ok steps →
        steps.map Step.index = (List.range parts.length).map fun i : Nat => (i : Int)) ∧
      (∀ defect, ofSource order (.value v) = .error (.malformedTrace defect) ↔
        ∃ i p, FirstUnreadable parts i p ∧ (∀ log, p ≠ .object log) ∧
          defect = .element i p.kindName) ∧
      ((∃ fault, IsFieldFault fault ∧ ofSource order (.value v) = .error fault) ↔
        ∃ i log, FirstUnreadable parts i (.object log)) := by
  refine ⟨ofSource_of_partsOf?_eq_none, fun parts hparts => ?_⟩
  rw [ofSource_of_partsOf?_eq_some hparts]
  refine ⟨exists_ofEntries_iff, fun steps h => ?_, fun defect => ofEntries_eq_malformed_iff,
    exists_ofEntries_eq_fieldFault_iff⟩
  rw [map_index_of_ofEntries h, List.length_map]

/-- A number in the place of a stack is enough for a trace to be refused, and not as malformed. -/
theorem ofSource_numeric_stack :
    ofSource .bottomFirst (.value (.list [.object [("stack", .int 5)]])) = .error .wrongKind :=
  rfl

/-- An object without fields, one with a number for a stack, and no object. -/
def mixedParts : List Value :=
  [.object [], .object [("stack", .int 5)], .int 7]

/-- The object stands before what is no object, so the trace is refused for its stack. -/
theorem ofSource_refuses_iff_mixedParts :
    (∃ fault, IsFieldFault fault ∧
      ofSource .bottomFirst (.value (.list mixedParts)) = .error fault) ∧
      ¬ ∃ steps, ofSource .bottomFirst (.value (.list mixedParts)) = .ok steps := by
  obtain ⟨-, hsequence⟩ := ofSource_refuses_iff .bottomFirst (.list mixedParts)
  obtain ⟨hreturns, -, -, hfield⟩ := hsequence mixedParts rfl
  have hunreadable : ¬ IsReadable (.object [("stack", .int 5)]) := by
    intro h
    have hstack : (Value.int 5).truthy = false := h.stack
    cases hstack
  have hempty : IsReadable (.object []) := ⟨rfl, rfl, trivial, rfl, trivial, trivial, trivial⟩
  have hfirst : FirstUnreadable mixedParts 1 (.object [("stack", .int 5)]) := by
    refine ⟨rfl, hunreadable, fun j w hj hw => ?_⟩
    obtain rfl : j = 0 := Nat.lt_one_iff.mp hj
    cases hw
    exact hempty
  refine ⟨hfield.mpr ⟨1, _, hfirst⟩, fun h => ?_⟩
  exact hunreadable (hreturns.mp h _ (List.mem_of_getElem? hfirst.1))

end Step

end TraceAudit
