import Mathlib.Algebra.Ring.Nat
import TraceAudit.Memory

/-!
# Where the words of a memory lie

A word of a memory is meant to be thirty-two bytes, so that the bytes of the word at place `i` lie
at `32 * i`. `Written` says which bytes a word writes: pairs of hexadecimal digits among its last
sixty-four characters, with blanks before, between and behind the pairs. A word that writes nothing
counts as thirty-two zeros and keeps all other words in place.

Blanks do not: two of them in a word that can be read take the place of a byte, and the bytes of
all words behind it move to the front. The main statement, `placed_and_aligned_iff`, says where each
word lies whatever the words are, and that they are aligned exactly if no readable word has blanks
among its last sixty-four characters.
-/

namespace TraceAudit.Memory

open Text

/-! ### What a word writes -/

/-- The characters write the bytes: pairs of hexadecimal digits, with blanks between the pairs. -/
inductive Written : List Char → List UInt8 → Prop
  | nil : Written [] []
  | gap {c : Char} {cs : List Char} {bytes : List UInt8} (hc : isGap c = true)
      (hcs : Written cs bytes) : Written (c :: cs) bytes
  | pair {c d : Char} {high low : Nat} {cs : List Char} {bytes : List UInt8}
      (hc : nibble? c = some high) (hd : nibble? d = some low) (hcs : Written cs bytes) :
      Written (c :: d :: cs) (UInt8.ofNat (16 * high + low) :: bytes)

variable {c : Char} {cs : List Char} {bytes : List UInt8} {word : String} {words : List String}

/-- A blank is no digit. -/
theorem nibble?_of_isGap (h : isGap c = true) : nibble? c = none := by
  have hall : ∀ n ∈ [0x9, 0xA, 0xB, 0xC, 0xD, 0x20], nibble? (Char.ofNat n) = none := by decide
  have hmem : c.toNat ∈ [0x9, 0xA, 0xB, 0xC, 0xD, 0x20] := by
    rw [isGap, Bool.or_eq_true, decide_eq_true_eq, Bool.and_eq_true, decide_eq_true_eq,
      decide_eq_true_eq] at h
    rcases h with rfl | ⟨hlow, hhigh⟩
    · decide
    · simp only [List.mem_cons, List.not_mem_nil, or_false]
      omega
  have hnone := hall c.toNat hmem
  rwa [Char.ofNat_toNat] at hnone

theorem isGap_of_nibble? {n : Nat} (h : nibble? c = some n) : isGap c = false :=
  Bool.eq_false_iff.mpr fun hgap => nomatch (nibble?_of_isGap hgap).symm.trans h

/-- What a gap stands in front of is read on its own. -/
theorem bytesOfPairs?_gap (hc : isGap c = true) : bytesOfPairs? (c :: cs) = bytesOfPairs? cs := by
  cases cs with
  | nil => exact if_pos hc
  | cons d cs => exact if_pos hc

theorem written_of_bytesOfPairs? (h : bytesOfPairs? cs = some bytes) : Written cs bytes := by
  induction cs using bytesOfPairs?.induct generalizing bytes with
  | case1 =>
    cases h
    exact .nil
  | case2 c hgap =>
    rw [bytesOfPairs?_gap hgap] at h
    cases h
    exact .gap hgap .nil
  | case3 c hgap =>
    rw [bytesOfPairs?, if_neg hgap] at h
    exact nomatch h
  | case4 c d cs hgap ih =>
    rw [bytesOfPairs?_gap hgap] at h
    exact .gap hgap (ih h)
  | case5 c d cs hgap ih =>
    rw [bytesOfPairs?, if_neg hgap] at h
    obtain ⟨high, hhigh, h⟩ := Option.bind_eq_some_iff.mp h
    obtain ⟨low, hlow, h⟩ := Option.bind_eq_some_iff.mp h
    obtain ⟨rest, hrest, h⟩ := Option.bind_eq_some_iff.mp h
    cases h
    exact .pair hhigh hlow (ih hrest)

theorem bytesOfPairs?_of_written (h : Written cs bytes) : bytesOfPairs? cs = some bytes := by
  induction h with
  | nil => rfl
  | gap hc _ ih => rw [bytesOfPairs?_gap hc, ih]
  | pair hc hd _ ih =>
    rw [bytesOfPairs?, isGap_of_nibble? hc, if_neg Bool.false_ne_true, hc, hd, ih]
    rfl

/-- **A word is read as the bytes that it writes.** -/
theorem wordBytes?_eq_some_iff : wordBytes? word = some bytes ↔ Written (wordChars word) bytes :=
  ⟨written_of_bytesOfPairs?, bytesOfPairs?_of_written⟩

/-- Two characters write a byte, unless they are blanks. -/
theorem Written.length (h : Written cs bytes) : 2 * bytes.length + cs.countP isGap = cs.length := by
  induction h with
  | nil => rfl
  | gap hc _ ih =>
    rw [List.countP_cons_of_pos hc, List.length_cons]
    omega
  | pair hc hd _ ih =>
    rw [List.countP_cons_of_neg (by simp [isGap_of_nibble? hc]),
      List.countP_cons_of_neg (by simp [isGap_of_nibble? hd]), List.length_cons, List.length_cons,
      List.length_cons]
    omega

/-! ### The size of a word -/

/-- The blanks among the last sixty-four characters of a word that can be read. -/
def gaps (word : String) : Nat :=
  if (wordBytes? word).isSome then (wordChars word).countP isGap else 0

theorem length_wordChars (word : String) : (wordChars word).length = 64 := by
  rw [wordChars, List.length_leftpad, List.length_drop]
  omega

theorem wordBytes_of_none (h : wordBytes? word = none) : wordBytes word = zeroWord := by
  rw [wordBytes, h, Option.getD_none]

/-- A word has thirty-two bytes, less one for every two blanks. -/
theorem length_wordBytes (word : String) : 2 * (wordBytes word).length + gaps word = 64 := by
  rw [gaps, wordBytes]
  cases h : wordBytes? word with
  | none => rfl
  | some bytes =>
    have hlength := (wordBytes?_eq_some_iff.mp h).length
    rw [length_wordChars] at hlength
    exact hlength

/-- The bytes of a word are what it writes; if it writes nothing, they are zero. -/
theorem written_or_zeroWord (word : String) :
    Written (wordChars word) (wordBytes word) ∨
      (∀ bytes, ¬ Written (wordChars word) bytes) ∧ wordBytes word = zeroWord := by
  cases h : wordBytes? word with
  | none =>
    refine .inr ⟨fun bytes hwritten => ?_, wordBytes_of_none h⟩
    rw [wordBytes?_eq_some_iff.mpr hwritten] at h
    exact nomatch h
  | some bytes =>
    refine .inl ?_
    rw [wordBytes, h, Option.getD_some]
    exact wordBytes?_eq_some_iff.mp h

/-! ### The words in the memory -/

/-- The size of a memory: every two gaps take a byte from it. -/
theorem length_flatten (words : List String) :
    2 * (flatten words).length + (words.map gaps).sum = 64 * words.length := by
  induction words with
  | nil => rfl
  | cons word words ih =>
    have hword := length_wordBytes word
    rw [flatten] at ih
    rw [flatten, List.flatMap_cons, List.length_append, List.map_cons, List.sum_cons,
      List.length_cons]
    omega

/-- The bytes of a word lie behind those of the words before it. -/
theorem window_flatten {i : Nat} (h : words[i]? = some word) :
    window (flatten words) (flatten (words.take i)).length (wordBytes word).length =
      wordBytes word := by
  obtain ⟨hi, hword⟩ := List.getElem?_eq_some_iff.mp h
  have hsplit : words = words.take i ++ word :: words.drop (i + 1) := by
    rw [← hword, ← List.drop_eq_getElem_cons hi, List.take_append_drop]
  have hflatten : flatten words =
      flatten (words.take i) ++ (wordBytes word ++ flatten (words.drop (i + 1))) := by
    rw [flatten, hsplit, List.flatMap_append, List.flatMap_cons, ← hsplit]
    rfl
  rw [hflatten, window, List.drop_left, List.take_left]

/-- **Where the words lie**, whatever they are. -/
structure Placed (words : List String) : Prop where
  /-- Each word has thirty-two bytes, less one for every two gaps. -/
  size : ∀ word ∈ words, 2 * (wordBytes word).length + gaps word = 64
  /-- These are the bytes that the word writes, or zeros if it writes nothing. -/
  bytes : ∀ word ∈ words, Written (wordChars word) (wordBytes word) ∨
    (∀ bytes, ¬ Written (wordChars word) bytes) ∧ wordBytes word = List.replicate 32 0
  /-- The gaps of the words before a word move its bytes to the front. -/
  place : ∀ (i : Nat) word, words[i]? = some word → ∃ start,
    2 * start + ((words.take i).map gaps).sum = 64 * i ∧
      window (flatten words) start (wordBytes word).length = wordBytes word
  /-- There is nothing else in the memory. -/
  total : 2 * (flatten words).length + (words.map gaps).sum = 64 * words.length

/-- Each word has thirty-two bytes of the memory to itself. -/
structure Aligned (words : List String) : Prop where
  length : (flatten words).length = 32 * words.length
  place : ∀ (i : Nat) word, words[i]? = some word →
    window (flatten words) (32 * i) 32 = wordBytes word

theorem placed (words : List String) : Placed words where
  size word _ := length_wordBytes word
  bytes word _ := written_or_zeroWord word
  place i word h := by
    have hi : (words.take i).length = i :=
      List.length_take_of_le (Nat.le_of_lt (List.getElem?_eq_some_iff.mp h).1)
    have hstart := length_flatten (words.take i)
    rw [hi] at hstart
    exact ⟨_, hstart, window_flatten h⟩
  total := length_flatten words

theorem sum_gaps_eq_zero_iff : (words.map gaps).sum = 0 ↔ ∀ word ∈ words, gaps word = 0 := by
  rw [List.sum_eq_zero_iff_forall_eq_nat, List.forall_mem_map]

theorem aligned_of_gaps_eq_zero (h : ∀ word ∈ words, gaps word = 0) : Aligned words := by
  refine ⟨?_, fun i word hword => ?_⟩
  · have htotal := (placed words).total
    rw [sum_gaps_eq_zero_iff.mpr h] at htotal
    omega
  · obtain ⟨start, hstart, hwindow⟩ := (placed words).place i word hword
    have hsize := length_wordBytes word
    rw [sum_gaps_eq_zero_iff.mpr fun w hw => h w (List.mem_of_mem_take hw)] at hstart
    rw [h word (List.mem_of_getElem? hword)] at hsize
    have hstart : start = 32 * i := by omega
    have hsize : (wordBytes word).length = 32 := by omega
    rwa [hstart, hsize] at hwindow

theorem Aligned.gaps_eq_zero (h : Aligned words) : ∀ word ∈ words, gaps word = 0 := by
  have htotal := (placed words).total
  rw [h.length] at htotal
  refine sum_gaps_eq_zero_iff.mp ?_
  omega

/-- **The words of a memory are aligned unless one that can be read has blanks in it.** Every word
lies where the sizes of the words before it put it, and a word that cannot be read shifts
nothing. -/
theorem placed_and_aligned_iff (words : List String) :
    Placed words ∧ (Aligned words ↔ ∀ word ∈ words, gaps word = 0) :=
  ⟨placed words, Aligned.gaps_eq_zero, aligned_of_gaps_eq_zero⟩

/-- A word of two blanks is filled up with zeros to sixty-two digits, which are a byte too few. -/
theorem not_aligned_blank : (flatten ["  ", "01"]).length = 63 ∧ ¬ Aligned ["  ", "01"] := by
  have hlength : (flatten ["  ", "01"]).length = 63 := by decide +kernel
  exact ⟨hlength, fun h => absurd (hlength.symm.trans h.length) (by decide)⟩

end TraceAudit.Memory
