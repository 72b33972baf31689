/-!
# Occurrences in a text
-/

namespace TraceAudit.Text

/-- Whether one text occurs in another as a run of characters. -/
def occursIn (needle : List Char) : List Char → Bool
  | [] => needle.isEmpty
  | c :: rest => needle.isPrefixOf (c :: rest) || occursIn needle rest

/-- Whether one string occurs in another. -/
def contains (s needle : String) : Bool :=
  occursIn needle.toList s.toList

theorem occursIn_iff {needle cs : List Char} :
    occursIn needle cs = true ↔ ∃ before after, before ++ needle ++ after = cs := by
  induction cs with
  | nil => simp [occursIn, List.append_eq_nil_iff]
  | cons c rest ih =>
    rw [occursIn, Bool.or_eq_true, ih, List.isPrefixOf_iff_prefix]
    constructor
    · rintro (⟨after, h⟩ | ⟨before, after, h⟩)
      · exact ⟨[], after, h⟩
      · exact ⟨c :: before, after, by simp [← h]⟩
    · rintro ⟨_ | ⟨d, before⟩, after, h⟩
      · exact .inl ⟨after, h⟩
      · refine .inr ⟨before, after, ?_⟩
        simp only [List.cons_append, List.cons.injEq] at h
        exact h.2

end TraceAudit.Text
