import TraceAudit.Proofs.Finding.Place
import TraceAudit.Proofs.Finding.Reordering

/-!
# Locations in the source

A finding that names no frame is told by its contract and its function (`SourceLocation`). Its
place is the text of both in a row, `contract:…function:…`, where a part that is not told is left
out, and the rule where nothing is told. Nothing stands between the two parts, so a place does not
always tell where it was cut. `SourceLocation.ConfusedWith` says exactly which locations have one
place:

* the contract of one may go on, behind the contract of the other, with a function: `A` with the
  function `f` reads like the contract `Afunction:f` (`SourceLocation.HiddenIn`);
* the rule, which stands for a location that is not told, may read like a location.

Apart from these, findings of one rule have one key only at one location
(`Finding.mergeKey_eq_iff_of_locatedAt`), and a merger folds no others
(`mergeKeys_separate_locations`).
-/

namespace TraceAudit

/-- Where in the source a finding is. A part that is not told is empty. -/
@[ext] structure SourceLocation where
  contract : String
  function : String
deriving DecidableEq, Repr

namespace SourceLocation

/-- One part of the text of a location. -/
def part (name told : String) : String :=
  if told = "" then "" else name ++ ":" ++ told

/-- The text of a location. -/
def text (l : SourceLocation) : String :=
  part "contract" l.contract ++ part "function" l.function

/-- The contract of `l'` is the contract of `l` and what comes behind it in the text, up to
somewhere in the function of `l`. -/
def HiddenIn (l l' : SourceLocation) : Prop :=
  l.contract ≠ "" ∧ l.function ≠ "" ∧ ∃ e, l'.contract = l.contract ++ "function:" ++ e ∧
    l.function = e ++ part "function" l'.function

/-- Two locations have one place in findings of a rule: the first one reads like the second, or it
is not told and the rule reads like the second. -/
def ConfusedWith (rule : String) (l l' : SourceLocation) : Prop :=
  l.HiddenIn l' ∨ l = ⟨"", ""⟩ ∧ rule = l'.text

/-! ### Parts -/

variable {l l' : SourceLocation} {name told told' : String}

theorem part_empty (name : String) : part name "" = "" :=
  if_pos rfl

theorem part_of_ne (h : told ≠ "") : part name told = name ++ ":" ++ told :=
  if_neg h

theorem part_eq_empty_iff : part name told = "" ↔ told = "" := by
  constructor
  · intro h
    by_contra hne
    rw [part_of_ne hne, String.append_eq_empty_iff] at h
    exact hne h.2
  · rintro rfl
    exact part_empty name

theorem part_injective (h : part name told = part name told') : told = told' := by
  by_cases hempty : told = ""
  · rw [hempty, part_empty, eq_comm, part_eq_empty_iff] at h
    rw [hempty, h]
  · by_cases hempty' : told' = ""
    · rw [hempty', part_empty, part_eq_empty_iff] at h
      rw [hempty', h]
    · rw [part_of_ne hempty, part_of_ne hempty'] at h
      exact String.append_right_inj _ |>.mp h

theorem text_eq_empty_iff : l.text = "" ↔ l = ⟨"", ""⟩ := by
  obtain ⟨contract, function⟩ := l
  rw [text, String.append_eq_empty_iff, part_eq_empty_iff, part_eq_empty_iff, mk.injEq]

/-! ### Locations with one text -/

/-- A text that begins with a mark is cut into two parts. The second part begins like the mark or is
empty, and the mark does not begin anew within itself, so the mark belongs to the first part as a
whole. -/
theorem exists_of_marked_eq_append {α : Type} {m : α} {ms rest front back : List α} (hms : m ∉ ms)
    (hfront : front ≠ []) (hback : back = [] ∨ back.head? = some m)
    (h : m :: ms ++ rest = front ++ back) :
    ∃ e, front = m :: ms ++ e ∧ rest = e ++ back := by
  rcases List.append_eq_append_iff.mp h with ⟨e, hfront', hrest⟩ | ⟨r, hmark, hback'⟩
  · exact ⟨e, hfront', hrest⟩
  · -- the cut is not behind the mark, so what is left of the mark stands at the head of the back
    obtain ⟨c, front, rfl⟩ := List.exists_cons_of_ne_nil hfront
    obtain ⟨rfl, hms'⟩ := List.cons.inj hmark
    cases r with
    | nil => exact ⟨[], by simp [hms'], hback'.symm⟩
    | cons d r =>
      rw [hback', List.cons_append, List.head?_cons] at hback
      rcases hback with hnil | hhead
      · cases hnil
      · cases hhead
        exact absurd (hms' ▸ List.mem_append_right front List.mem_cons_self) hms

/-- The text of a function is empty or begins with the first letter of its mark. -/
theorem head?_part_function :
    (part "function" told).toList = [] ∨ (part "function" told).toList.head? = some 'f' := by
  by_cases h : told = ""
  · rw [h, part_empty]
    exact .inl rfl
  · rw [part_of_ne h, String.toList_append, String.toList_append]
    exact .inr rfl

/-- Where the text of a function is that of another behind something, the mark of the function is
part of this. -/
theorem exists_of_part_eq_append {front : List Char} (hfront : front ≠ [])
    (h : (part "function" told).toList = front ++ (part "function" told').toList) :
    told ≠ "" ∧ ∃ e : String, front = ("function:" ++ e).toList ∧
      told = e ++ part "function" told' := by
  have htold : told ≠ "" := by
    rintro rfl
    rw [part_empty, String.toList_empty, eq_comm, List.append_eq_nil_iff] at h
    exact hfront h.1
  have hmark : "function:".toList = 'f' :: ['u', 'n', 'c', 't', 'i', 'o', 'n', ':'] := rfl
  have hparts : "function" ++ ":" = "function:" := rfl
  have hms : 'f' ∉ ['u', 'n', 'c', 't', 'i', 'o', 'n', ':'] := by decide
  rw [part_of_ne htold, hparts, String.toList_append, hmark] at h
  obtain ⟨e, hfront', hrest⟩ := exists_of_marked_eq_append hms hfront head?_part_function h
  refine ⟨htold, String.ofList e, ?_, String.toList_inj.mp ?_⟩
  · rw [String.toList_append, hmark, String.toList_ofList, hfront']
  · rw [hrest, String.toList_append, String.toList_ofList]

/-- What is hidden in a location has its text. -/
theorem HiddenIn.text_eq (h : l.HiddenIn l') : l.text = l'.text := by
  obtain ⟨hcontract, hfunction, e, hcontract', hfunction'⟩ := h
  have hne : l'.contract ≠ "" := by
    rw [hcontract', Ne, String.append_eq_empty_iff, String.append_eq_empty_iff]
    exact fun h => hcontract h.1.1
  have hmark : "function" ++ ":" = "function:" := rfl
  rw [text, text, part_of_ne hcontract, part_of_ne hfunction, part_of_ne hne, hcontract', hmark]
  conv_lhs => rw [hfunction']
  simp only [String.append_assoc]

/-- A contract in which a location is hidden holds a colon. -/
theorem HiddenIn.colon_mem (h : l.HiddenIn l') : ':' ∈ l'.contract.toList := by
  obtain ⟨-, -, e, hcontract', -⟩ := h
  have hmark : ':' ∈ "function:".toList := by decide
  rw [hcontract', String.toList_append, String.toList_append]
  exact List.mem_append_left _ (List.mem_append_right _ hmark)

/-- If one contract goes on behind the other, the locations are the same or the one with the shorter
contract is hidden in the other. -/
theorem eq_or_hiddenIn (hcontract : l.contract ≠ "") {front : List Char}
    (hcontract' : l'.contract.toList = l.contract.toList ++ front)
    (h : (part "function" l.function).toList = front ++ (part "function" l'.function).toList) :
    l = l' ∨ l.HiddenIn l' := by
  by_cases hfront : front = []
  · rw [hfront, List.append_nil, String.toList_inj] at hcontract'
    rw [hfront, List.nil_append, String.toList_inj] at h
    exact .inl (SourceLocation.ext hcontract'.symm (part_injective h))
  · obtain ⟨hfunction, e, rfl, hfunction'⟩ := exists_of_part_eq_append hfront h
    refine .inr ⟨hcontract, hfunction, e, String.toList_inj.mp ?_, hfunction'⟩
    rw [hcontract', ← String.toList_append, String.append_assoc]

/-- Only a text without a contract begins like a function. -/
theorem contract_eq_empty_of_text_eq (h : l.text = l'.text) (hcontract : l.contract = "") :
    l'.contract = "" := by
  by_contra hne
  have hmark : "contract".toList = ['c', 'o', 'n', 't', 'r', 'a', 'c', 't'] := rfl
  rw [text, text, hcontract, part_empty, String.empty_append, part_of_ne hne] at h
  have hhead : (part "function" l.function).toList = [] ∨
      (part "function" l.function).toList.head? = some 'f' := head?_part_function
  rw [h, String.toList_append, String.toList_append, String.toList_append, hmark] at hhead
  rcases hhead with hnil | hhead
  · cases hnil
  · cases hhead

/-- **Locations with one text** are the same, or one of them is hidden in the other. -/
theorem text_eq_iff : l.text = l'.text ↔ l = l' ∨ l.HiddenIn l' ∨ l'.HiddenIn l := by
  constructor
  · intro h
    by_cases hcontract : l.contract = ""
    · have hcontract' := contract_eq_empty_of_text_eq h hcontract
      rw [text, text, hcontract, hcontract', part_empty, String.empty_append,
        String.empty_append] at h
      exact .inl (SourceLocation.ext (hcontract.trans hcontract'.symm) (part_injective h))
    · have hcontract' : l'.contract ≠ "" := fun hempty =>
        hcontract (contract_eq_empty_of_text_eq h.symm hempty)
      rw [text, text, part_of_ne hcontract, part_of_ne hcontract'] at h
      simp only [String.append_assoc, String.append_right_inj] at h
      rw [← String.toList_inj, String.toList_append, String.toList_append] at h
      -- one of the contracts goes on behind the other
      rcases List.append_eq_append_iff.mp h with ⟨front, hlonger, hback⟩ | ⟨front, hlonger, hback⟩
      · exact (eq_or_hiddenIn hcontract hlonger hback).imp_right .inl
      · rcases eq_or_hiddenIn hcontract' hlonger hback with heq | hhidden
        · exact .inl heq.symm
        · exact .inr (.inr hhidden)
  · rintro (rfl | h | h)
    · rfl
    · exact h.text_eq
    · exact h.text_eq.symm

end SourceLocation

/-! ### Findings at a location -/

/-- Evidence tells a part of the location. A part that is not told is empty or missing. -/
def Fields.Tells (fields : Fields) (name told : String) : Prop :=
  fields.get name = .text told ∨ told = "" ∧ fields.get name = .null

/-- The evidence of a finding is one object, which names no frame and tells the location. -/
def Finding.LocatedAt (f : Finding) (l : SourceLocation) : Prop :=
  ∃ fields, f.evidence = .object fields ∧ fields.get "frame_id" = .null ∧
    fields.Tells "contract" l.contract ∧ fields.Tells "function" l.function

namespace Finding

open SourceLocation

variable {f g : Finding} {l l' : SourceLocation}

theorem placePart_of_tells {fields : Fields} {name told : String} (h : fields.Tells name told) :
    placePart fields name = part name told := by
  rcases h with htext | ⟨rfl, hnull⟩
  · rw [placePart, htext]
    by_cases hempty : told = ""
    · rw [hempty, part_empty]
      rfl
    · have htruthy : (Value.text told).truthy = true := by simpa [Value.truthy] using hempty
      rw [part_of_ne hempty]
      exact if_pos htruthy
  · rw [placePart, hnull, part_empty]
    rfl

/-- The place of a finding is the text of its location, or its rule if this is empty. -/
theorem place_of_locatedAt (h : f.LocatedAt l) :
    f.place = if l.text = "" then f.rule else l.text := by
  obtain ⟨fields, hevidence, hframe, hcontract, hfunction⟩ := h
  have hfirst : f.evidence.firstFields = fields := by rw [hevidence, Evidence.firstFields]
  rw [place, hfirst, place?, hframe]
  dsimp only
  rw [placePart_of_tells hcontract, placePart_of_tells hfunction, ← text]
  split
  · rfl
  · rfl

/-- **The keys of located findings.** Findings of one rule have one key exactly if their locations
are the same or are confused with each other. -/
theorem mergeKey_eq_iff_of_locatedAt (hf : f.LocatedAt l) (hg : g.LocatedAt l')
    (hrule : f.rule = g.rule) :
    f.mergeKey = g.mergeKey ↔
      l = l' ∨ l.ConfusedWith f.rule l' ∨ l'.ConfusedWith f.rule l := by
  rw [mergeKey, mergeKey, MergeKey.mk.injEq, and_iff_right hrule, place_of_locatedAt hf,
    place_of_locatedAt hg, ← hrule]
  constructor
  · intro h
    by_cases hempty : l.text = ""
    · by_cases hempty' : l'.text = ""
      · rw [text_eq_empty_iff] at hempty hempty'
        exact .inl (hempty.trans hempty'.symm)
      · rw [if_pos hempty, if_neg hempty'] at h
        exact .inr (.inl (.inr ⟨text_eq_empty_iff.mp hempty, h⟩))
    · by_cases hempty' : l'.text = ""
      · rw [if_neg hempty, if_pos hempty'] at h
        exact .inr (.inr (.inr ⟨text_eq_empty_iff.mp hempty', h.symm⟩))
      · rw [if_neg hempty, if_neg hempty'] at h
        exact (text_eq_iff.mp h).imp_right (Or.imp .inl .inl)
  · have hconfused : ∀ {l l' : SourceLocation}, l.ConfusedWith f.rule l' →
        (if l.text = "" then f.rule else l.text) = if l'.text = "" then f.rule else l'.text := by
      rintro l l' (h | ⟨hempty, h⟩)
      · rw [h.text_eq]
      · rw [if_pos (text_eq_empty_iff.mpr hempty)]
        split
        · rfl
        · exact h
    rintro (rfl | h | h)
    · rfl
    · exact hconfused h
    · exact (hconfused h).symm

end Finding

open Merging

/-- **Keys and locations.** Findings of one rule at told locations have one key exactly if the
locations are the same, or one of them reads like the other or like the rule. So what a session with
a merger folds into a located finding is about its location or about one that it is confused
with. -/
theorem mergeKeys_separate_locations :
    (∀ (f g : Finding) (l l' : SourceLocation), f.LocatedAt l → g.LocatedAt l' → f.rule = g.rule →
      (f.mergeKey = g.mergeKey ↔
        l = l' ∨ l.ConfusedWith f.rule l' ∨ l'.ConfusedWith f.rule l)) ∧
    ∀ (bs : List Batch) (t : Nat) (x : Addition) (l : SourceLocation),
      (bs.flatMap Batch.additions)[t]? = some x → x.finding.LocatedAt l →
      (Merger.ofBatches bs).pool[t]? =
        some (x.finding.absorbAll (absorbedInto (bs.flatMap Batch.additions) t)) ∧
      ∀ g ∈ absorbedInto (bs.flatMap Batch.additions) t, ∀ l', g.LocatedAt l' →
        l = l' ∨ l.ConfusedWith x.finding.rule l' ∨ l'.ConfusedWith x.finding.rule l := by
  refine ⟨fun f g l l' hf hg hrule => Finding.mergeKey_eq_iff_of_locatedAt hf hg hrule,
    fun bs t x l hx hl => ⟨?_, fun g hg l' hl' => ?_⟩⟩
  · rw [(Merger.shows_ofBatches bs).pool, final, hx, Option.map_some]
  · have hkey := mergeKey_of_mem_absorbedInto hg
    rw [keyAt_of_getElem? hx, Option.some_inj] at hkey
    exact (Finding.mergeKey_eq_iff_of_locatedAt hl hl' (congrArg MergeKey.rule hkey)).mp hkey

/-- A finding about an unchecked call, with the evidence that a tool gives for its location. -/
def uncheckedCallAt (id : String) (location : Fields) : Finding where
  id
  rule := Rule.uncheckedCall.tag
  severity := .medium
  title := "Unchecked call"
  description := "The result of a call is not checked."
  evidence := .object location

/-- A call in a function of a contract. -/
def withdrawCall : Finding :=
  uncheckedCallAt "VUL-0001" [("contract", .text "Vault"), ("function", .text "withdraw")]

/-- A call in another function of the same contract. -/
def depositCall : Finding :=
  uncheckedCallAt "STATIC-MYTHRIL-0001"
    [("contract", .text "Vault"), ("function", .text "deposit")]

/-- A call in a contract whose name reads like a contract and a function. -/
def oddlyNamedCall : Finding :=
  uncheckedCallAt "STATIC-MYTHRIL-0002" [("contract", .text "Vaultfunction:withdraw")]

theorem withdrawCall_locatedAt : withdrawCall.LocatedAt ⟨"Vault", "withdraw"⟩ :=
  ⟨_, rfl, rfl, .inl rfl, .inl rfl⟩

theorem depositCall_locatedAt : depositCall.LocatedAt ⟨"Vault", "deposit"⟩ :=
  ⟨_, rfl, rfl, .inl rfl, .inl rfl⟩

theorem oddlyNamedCall_locatedAt : oddlyNamedCall.LocatedAt ⟨"Vaultfunction:withdraw", ""⟩ :=
  ⟨_, rfl, rfl, .inl rfl, .inr ⟨rfl, rfl⟩⟩

/-- Two findings of one rule at different locations have one key, and the merger folds one into the
other. -/
theorem mergeKey_eq_of_hidden :
    withdrawCall.LocatedAt ⟨"Vault", "withdraw"⟩ ∧
      oddlyNamedCall.LocatedAt ⟨"Vaultfunction:withdraw", ""⟩ ∧
      "Vault" ≠ "Vaultfunction:withdraw" ∧ withdrawCall.rule = oddlyNamedCall.rule ∧
      withdrawCall.mergeKey = oddlyNamedCall.mergeKey ∧
      (Finding.mergeAll [withdrawCall] [[oddlyNamedCall]]).length = 1 :=
  ⟨withdrawCall_locatedAt, oddlyNamedCall_locatedAt, by decide, rfl, rfl, rfl⟩

/-- Of two further calls, the one in another function has a key of its own, and the one in the
contract with the strange name is folded in. -/
theorem mergeKeys_separate_locations_withdraw :
    withdrawCall.mergeKey ≠ depositCall.mergeKey ∧
      (Merger.ofBatches
        [⟨.detector, [withdrawCall]⟩, ⟨.tool, [depositCall, oddlyNamedCall]⟩]).pool[0]? =
          some (withdrawCall.absorbAll [oddlyNamedCall]) := by
  obtain ⟨hkeys, hsession⟩ := mergeKeys_separate_locations
  constructor
  · intro hkey
    have hcolon : ':' ∉ "Vault".toList := by decide
    rcases (hkeys _ _ _ _ withdrawCall_locatedAt depositCall_locatedAt rfl).mp hkey with
      heq | (hhidden | ⟨hempty, -⟩) | hhidden | ⟨hempty, -⟩
    · exact absurd heq (by decide)
    · exact hcolon hhidden.colon_mem
    · exact absurd hempty (by decide)
    · exact hcolon hhidden.colon_mem
    · exact absurd hempty (by decide)
  · exact (hsession [⟨.detector, [withdrawCall]⟩, ⟨.tool, [depositCall, oddlyNamedCall]⟩] 0 _ _
      rfl withdrawCall_locatedAt).1

end TraceAudit
