import TraceAudit.Text.CodeRange

/-!
# Blanks

Two classes of white space are in use. Texts from outside are stripped of `isBlank` characters:
the Unicode white space together with the four information separators `U+001C` to `U+001F`. The
readers of numbers, once a text has been stripped, pass over `isWhite` characters only, so a
separator behind a number's sign or prefix makes the number unreadable.
-/

namespace TraceAudit.Text

/-- The code points of the Unicode property White_Space. -/
def whiteRanges : List CodeRange := [
    (0x9, 0xD), (0x20, 0x20), (0x85, 0x85), (0xA0, 0xA0), (0x1680, 0x1680), (0x2000, 0x200A),
    (0x2028, 0x2029), (0x202F, 0x202F), (0x205F, 0x205F), (0x3000, 0x3000)]

/-- White space in the sense of the Unicode property. -/
def isWhite (c : Char) : Bool :=
  inRanges whiteRanges c

/-- White space or one of the four information separators. -/
def isBlank (c : Char) : Bool :=
  isWhite c || (0x1C ≤ c.toNat && c.toNat ≤ 0x1F)

/-- Drop the characters of a class from both ends. -/
def trim (p : Char → Bool) (cs : List Char) : List Char :=
  ((cs.dropWhile p).reverse.dropWhile p).reverse

/-- Drop blanks from both ends. -/
def strip (cs : List Char) : List Char :=
  trim isBlank cs

/-- White space is blank. -/
theorem isBlank_of_isWhite {c : Char} (h : isWhite c = true) : isBlank c = true := by
  simp [isBlank, h]

/-- What is not blank is no white space. -/
theorem isWhite_of_isBlank_eq_false {c : Char} (h : isBlank c = false) : isWhite c = false :=
  Bool.eq_false_iff.mpr fun hw => nomatch (isBlank_of_isWhite hw).symm.trans h

/-- Nothing is dropped from a text without characters of the class. -/
theorem trim_of_forall_not {p : Char → Bool} {cs : List Char} (h : ∀ c ∈ cs, p c = false) :
    trim p cs = cs := by
  have hd : ∀ l : List Char, (∀ c ∈ l, p c = false) → l.dropWhile p = l := by
    intro l hl
    cases l with
    | nil => rfl
    | cons c r => simp [hl c (by simp)]
  rw [trim, hd cs h, hd cs.reverse (fun c hc => h c (List.mem_reverse.1 hc)), List.reverse_reverse]

end TraceAudit.Text
