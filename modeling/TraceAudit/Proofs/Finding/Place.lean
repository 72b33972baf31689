import TraceAudit.Finding.Merge
import TraceAudit.Rule

/-!
# The places of findings

The place of a finding is the frame that it names, or else contract and function, or else its rule.
How a place begins tells which of these it is, unless it is the text of a rule, which may be any.
The tag of a rule of this library does not begin like a frame, so what names a frame and what names
none do not have one key if one of them is of such a rule (`Finding.mergeKey_ne_of_frameId`).
-/

namespace TraceAudit

variable {f g : Finding}

theorem Rule.take_tag_ne (rule : Rule) : rule.tag.toList.take 2 ≠ ['f', 'r'] := by
  cases rule <;> decide

namespace Finding

/-- The frame that a finding names, null if it names none. -/
def frameId (f : Finding) : Value :=
  f.evidence.firstFields.get "frame_id"

/-- A place that is a frame begins like one. -/
theorem take_place_of_frameId_ne_null (h : f.frameId ≠ .null) :
    f.place.toList.take 2 = ['f', 'r'] := by
  have hmark : "frame:".toList = ['f', 'r', 'a', 'm', 'e', ':'] := rfl
  rw [place, place?]
  split
  case h_1 hnull => exact absurd hnull h
  case h_2 =>
    rw [Option.getD_some, String.toList_append, hmark]
    rfl

theorem placePart_eq_or (fields : Fields) (name : String) :
    placePart fields name = "" ∨
      placePart fields name = name ++ ":" ++ (fields.get name).display := by
  rw [placePart]
  split
  · exact .inr rfl
  · exact .inl rfl

/-- A place that is no frame does not begin like one, unless it is the rule. -/
theorem place_of_frameId_eq_null (h : f.frameId = .null) :
    f.place = f.rule ∨ f.place.toList.take 2 ≠ ['f', 'r'] := by
  have hcontract : "contract".toList = ['c', 'o', 'n', 't', 'r', 'a', 'c', 't'] := rfl
  have hfunction : "function".toList = ['f', 'u', 'n', 'c', 't', 'i', 'o', 'n'] := rfl
  rw [frameId] at h
  rw [place, place?, h]
  generalize f.evidence.firstFields = fields
  dsimp only
  split
  case isTrue => exact .inl rfl
  case isFalse hplace =>
    refine .inr ?_
    rw [Option.getD_some]
    -- what comes first in the place is the contract, or else the function
    rcases placePart_eq_or fields "contract" with hpart | hpart
    · rw [hpart, String.empty_append] at hplace ⊢
      rcases placePart_eq_or fields "function" with hpart | hpart
      · exact absurd hpart hplace
      · rw [hpart, String.toList_append, String.toList_append, hfunction]
        exact nofun
    · rw [hpart, String.toList_append, String.toList_append, String.toList_append, hcontract]
      exact nofun

/-- **No finding without a frame has the key of a detector's finding with one.** -/
theorem mergeKey_ne_of_frameId {rule : Rule} (hrule : f.rule = rule.tag) (hf : f.frameId ≠ .null)
    (hg : g.frameId = .null) : g.mergeKey ≠ f.mergeKey := by
  intro hkey
  obtain ⟨hrules, hplaces⟩ := MergeKey.mk.inj hkey
  have hframe := take_place_of_frameId_ne_null hf
  rw [← hplaces] at hframe
  rcases place_of_frameId_eq_null hg with hown | hother
  · rw [hown, hrules, hrule] at hframe
    exact rule.take_tag_ne hframe
  · exact hother hframe

end Finding

end TraceAudit
