import Mathlib.Data.List.Nodup
import TraceAudit.IdSequence

/-!
# Identifiers are distinct

An identifier tells the label of its sequence and its number, however many digits it is padded to
and also where there are more digits than that: the number is what stands behind the last hyphen.
So a sequence never issues an identifier twice (`nodup_draw`), and sequences with different labels
have no identifier in common (`disjoint_draw`). Two sequences with one label, each counting from
one on, issue the same identifiers.
-/

namespace TraceAudit

namespace Numeral

/-- Padding does not change the number that the digits denote. -/
theorem ofDigitChars_decimalPadded (width n : Nat) :
    Nat.ofDigitChars 10 (decimalPadded width n) 0 = n := by
  rw [decimalPadded, List.leftpad, Nat.ofDigitChars_append, Nat.ofDigitChars_replicate_zero,
    Nat.mul_zero, Nat.ofDigitChars_ten_toDigits]

theorem decimalPadded_injective (width : Nat) : Function.Injective (decimalPadded width) := by
  intro m n h
  have hread := congrArg (fun cs => Nat.ofDigitChars 10 cs 0) h
  simp only [ofDigitChars_decimalPadded] at hread
  exact hread

theorem isDigit_of_mem_decimalPadded {width n : Nat} {c : Char}
    (h : c ∈ decimalPadded width n) : c.isDigit := by
  rcases List.mem_append.mp h with hzero | hdigit
  · rw [List.eq_of_mem_replicate hzero]
    rfl
  · exact Nat.isDigit_of_mem_toDigits (by decide) (by decide) hdigit

end Numeral

namespace IdSequence

variable {s t : IdSequence} {m n count : Nat}

theorem toList_nth (s : IdSequence) (n : Nat) :
    (s.nth n).toList = s.label.toList ++ '-' :: Numeral.decimalPadded s.width n := by
  have hhyphen : "-".toList = ['-'] := rfl
  rw [nth, String.toList_append, String.toList_append, hhyphen, List.append_assoc,
    String.toList_ofList]
  rfl

theorem nth_injective (s : IdSequence) : Function.Injective s.nth := by
  intro m n h
  have hchars := congrArg String.toList h
  rw [toList_nth, toList_nth, List.append_cancel_left_eq] at hchars
  exact Numeral.decimalPadded_injective s.width (List.cons.inj hchars).2

/-- Behind the last hyphen of an identifier are digits, and before it is the label. -/
theorem dropWhile_reverse_nth (s : IdSequence) (n : Nat) :
    (s.nth n).toList.reverse.dropWhile (fun c => c ≠ '-') = '-' :: s.label.toList.reverse := by
  have hdigits : ∀ c ∈ (Numeral.decimalPadded s.width n).reverse, decide (c ≠ '-') = true := by
    intro c hc
    have hdigit := Numeral.isDigit_of_mem_decimalPadded (List.mem_reverse.mp hc)
    refine decide_eq_true fun heq => ?_
    rw [heq] at hdigit
    exact absurd hdigit (by decide)
  rw [toList_nth, List.reverse_append, List.reverse_cons, List.append_assoc,
    List.dropWhile_append_of_pos hdigits]
  rfl

/-- An identifier tells the label of its sequence. -/
theorem label_eq_of_nth_eq (h : s.nth m = t.nth n) : s.label = t.label := by
  have hlabels := dropWhile_reverse_nth s m
  rw [h, dropWhile_reverse_nth t n] at hlabels
  exact (String.toList_injective (List.reverse_injective (List.cons.inj hlabels).2)).symm

/-- **A sequence never issues an identifier twice.** -/
theorem nodup_draw (s : IdSequence) (count : Nat) : (s.draw count).Nodup := by
  refine List.Nodup.map (fun j k h => ?_) List.nodup_range
  have hnumber := nth_injective s h
  omega

/-- **Sequences with different labels have no identifier in common.** -/
theorem disjoint_draw (h : s.label ≠ t.label) (m n : Nat) :
    List.Disjoint (s.draw m) (t.draw n) := by
  intro id hs ht
  obtain ⟨j, -, rfl⟩ := List.mem_map.mp hs
  obtain ⟨k, -, hk⟩ := List.mem_map.mp ht
  exact h (label_eq_of_nth_eq hk.symm)

/-- A sequence that issues anything issues its next identifier. -/
theorem nth_mem_draw (h : 0 < count) : s.nth (s.issued + 1) ∈ s.draw count :=
  List.mem_map.mpr ⟨0, List.mem_range.mpr h, rfl⟩

end IdSequence

end TraceAudit
