import Mathlib.Data.Int.ModEq
import Mathlib.Data.List.Basic
import Mathlib.Data.List.Induction
import TraceAudit.Proofs.BigEndian
import TraceAudit.Word

/-!
# Canonical words

Nodes spell the same word in different ways: with or without `0x`, in either case, with or without
leading zeros. A word is **canonical** if it consists of at most sixty-four hexadecimal digits
behind an optional mark. The four readings of a word (integer, canonical digits, address, bytes of
a memory) strip, cut and fill up the text each on its own. On canonical words all of them are
readings of one number (`denotes_number`), so that words with one number are read alike, whatever
their spelling, and words have the same address exactly if their numbers are congruent modulo the
range of addresses (`address?_eq_iff`).

The proof goes through the digits: a canonical word spells a list of digit values (`Spells`), the
readings are functions of these, and `digitsOf` gives the digit values back from the number.
-/

namespace TraceAudit

namespace Numeral

variable {ns : List Nat}

/-! ### Digits of a number -/

/-- The last `width` hexadecimal digits of a number, the most significant first. -/
def digitsOf : Nat → Nat → List Nat
  | 0, _ => []
  | width + 1, n => digitsOf width (n / 16) ++ [n % 16]

theorem length_digitsOf (width n : Nat) : (digitsOf width n).length = width := by
  induction width generalizing n with
  | zero => rfl
  | succ width ih => rw [digitsOf, List.length_append, ih, List.length_singleton]

theorem lt_of_mem_digitsOf {width n d : Nat} (h : d ∈ digitsOf width n) : d < 16 := by
  induction width generalizing n with
  | zero => exact nomatch h
  | succ width ih =>
    rcases List.mem_append.mp h with h | h
    · exact ih h
    · rw [List.mem_singleton.mp h]
      exact Nat.mod_lt n (by decide)

theorem digitsOf_zero (width : Nat) : digitsOf width 0 = List.replicate width 0 := by
  induction width with
  | zero => rfl
  | succ width ih => rw [digitsOf, Nat.zero_div, ih, List.replicate_succ']

/-- The last digits of a number are those of its remainder, and before them come those of its
quotient. -/
theorem digitsOf_add (a b n : Nat) :
    digitsOf (a + b) n = digitsOf a (n / 16 ^ b) ++ digitsOf b n := by
  induction b generalizing n with
  | zero => rw [Nat.pow_zero, Nat.div_one, digitsOf, List.append_nil, Nat.add_zero]
  | succ b ih =>
    rw [← Nat.add_assoc, digitsOf, ih, digitsOf, List.append_assoc, Nat.div_div_eq_div_mul,
      Nat.pow_succ, Nat.mul_comm 16]

theorem ofDigits_concat (ns : List Nat) (d : Nat) :
    ofDigits 16 (ns ++ [d]) = ofDigits 16 ns * 16 + d := by
  rw [ofDigits, List.foldl_append, ofDigits]
  rfl

theorem ofDigits_lt (h : ∀ d ∈ ns, d < 16) : ofDigits 16 ns < 16 ^ ns.length := by
  induction ns using List.reverseRecOn with
  | nil => decide
  | append_singleton ns d ih =>
    have hinit := ih fun e he => h e (List.mem_append_left _ he)
    have hd := h d (List.mem_append_right _ (List.mem_singleton_self d))
    rw [ofDigits_concat, List.length_append, List.length_singleton, Nat.pow_succ]
    omega

theorem digitsOf_ofDigits (h : ∀ d ∈ ns, d < 16) :
    digitsOf ns.length (ofDigits 16 ns) = ns := by
  induction ns using List.reverseRecOn with
  | nil => rfl
  | append_singleton ns d ih =>
    have hinit := ih fun e he => h e (List.mem_append_left _ he)
    have hd := h d (List.mem_append_right _ (List.mem_singleton_self d))
    have hdiv : (ofDigits 16 ns * 16 + d) / 16 = ofDigits 16 ns := by omega
    have hmod : (ofDigits 16 ns * 16 + d) % 16 = d := by omega
    rw [ofDigits_concat, List.length_append, List.length_singleton, digitsOf, hdiv, hmod, hinit]

/-- Digits filled up with zeros are the digits of the same number. -/
theorem leftpad_eq_digitsOf {width : Nat} (h : ∀ d ∈ ns, d < 16) (hlength : ns.length ≤ width) :
    List.leftpad width 0 ns = digitsOf width (ofDigits 16 ns) := by
  obtain ⟨k, rfl⟩ := Nat.exists_eq_add_of_le' hlength
  rw [digitsOf_add, Nat.div_eq_of_lt (ofDigits_lt h), digitsOf_zero, digitsOf_ofDigits h,
    List.leftpad, Nat.add_sub_cancel]

theorem ofDigits_digitsOf_eq_mod (width n : Nat) :
    ofDigits 16 (digitsOf width n) = n % 16 ^ width := by
  induction width generalizing n with
  | zero => rw [Nat.pow_zero, Nat.mod_one]; rfl
  | succ width ih =>
    rw [digitsOf, ofDigits_concat, ih, Nat.pow_succ', Nat.mod_mul]
    omega

theorem ofDigits_digitsOf {width n : Nat} (h : n < 16 ^ width) :
    ofDigits 16 (digitsOf width n) = n := by
  rw [ofDigits_digitsOf_eq_mod, Nat.mod_eq_of_lt h]

/-- The last digits of numbers are the same exactly if the numbers are congruent. -/
theorem digitsOf_eq_iff {width m n : Nat} :
    digitsOf width m = digitsOf width n ↔ m ≡ n [MOD 16 ^ width] := by
  have hmod : ∀ n, digitsOf width (n % 16 ^ width) = digitsOf width n := by
    intro n
    have hdigits := digitsOf_ofDigits fun d (hd : d ∈ digitsOf width n) => lt_of_mem_digitsOf hd
    rwa [length_digitsOf, ofDigits_digitsOf_eq_mod] at hdigits
  constructor
  · intro h
    rw [Nat.ModEq, ← ofDigits_digitsOf_eq_mod, h, ofDigits_digitsOf_eq_mod]
  · intro h
    rw [← hmod m, h, hmod n]

/-! ### Digits as characters -/

/-- The last `width` hexadecimal digits of a number, in lower case. -/
def hexDigits (width n : Nat) : List Char :=
  (digitsOf width n).map Nat.digitChar

theorem digitIn?_digitChar : ∀ d < 16, digitIn? 16 (Nat.digitChar d) = some d := by decide

/-- What is no digit is none of the characters of digits. -/
theorem notMem_map_digitChar {c : Char} (h : ∀ d ∈ ns, d < 16) (hc : digitIn? 16 c = none) :
    c ∉ ns.map Nat.digitChar := by
  intro hmem
  obtain ⟨d, hd, rfl⟩ := List.mem_map.mp hmem
  rw [digitIn?_digitChar d (h d hd)] at hc
  exact nomatch hc

theorem hexDigits_eq_iff {width m n : Nat} :
    hexDigits width m = hexDigits width n ↔ m ≡ n [MOD 16 ^ width] := by
  rw [← digitsOf_eq_iff]
  refine ⟨fun h => ?_, congrArg (List.map Nat.digitChar)⟩
  -- characters of digits are read back one by one
  have hread : ∀ n, (hexDigits width n).map (digitIn? 16) = (digitsOf width n).map some := by
    intro n
    rw [hexDigits, List.map_map]
    exact List.map_congr_left fun d hd => digitIn?_digitChar d (lt_of_mem_digitsOf hd)
  refine List.map_injective_iff.mpr (Option.some_injective _) ?_
  rw [← hread, ← hread, h]

/-- Digits have no mark in front of them. -/
theorem dropHexMark_map_digitChar (h : ∀ d ∈ ns, d < 16) :
    dropHexMark (ns.map Nat.digitChar) = ns.map Nat.digitChar := by
  rw [dropHexMark.eq_def]
  split
  · next z x rest heq =>
    rw [heq]
    refine if_neg ?_
    rintro ⟨-, rfl | rfl⟩
    · exact notMem_map_digitChar h (by decide : digitIn? 16 'x' = none) (by simp [heq])
    · exact notMem_map_digitChar h (by decide : digitIn? 16 'X' = none) (by simp [heq])
  · rfl

theorem digits?_map_digitChar (h : ∀ d ∈ ns, d < 16) (hne : ns ≠ []) :
    digits? 16 (ns.map Nat.digitChar) = some ns := by
  induction ns with
  | nil => exact absurd rfl hne
  | cons d ns ih =>
    have hd := digitIn?_digitChar d (h d List.mem_cons_self)
    have hns : ∀ e ∈ ns, e < 16 := fun e he => h e (List.mem_cons_of_mem d he)
    cases ns with
    | nil => simp [digits?, hd]
    | cons e ns =>
      -- the underscore is no digit
      have hgap : Nat.digitChar e ≠ '_' := fun heq =>
        notMem_map_digitChar hns (by decide : digitIn? 16 '_' = none) (heq ▸ List.mem_cons_self)
      have hrest := ih hns (List.cons_ne_nil e ns)
      rw [List.map_cons] at hrest
      rw [List.map_cons, List.map_cons, digits?]
      · rw [hd, Option.bind_some, hrest, Option.map_some]
      · exact List.cons_ne_nil _ _
      · exact fun rest heq => hgap (List.cons.inj heq).1

end Numeral

namespace Word

open Numeral Text

/-! ### Words of digits -/

/-- The word consists of the digits `ns`, most significant first, behind an optional mark. -/
structure Spells (word : String) (ns : List Nat) : Prop where
  lt : ∀ d ∈ ns, d < 16
  length : ns.length ≤ 64
  strip : Text.strip word.toList = word.toList
  lower : dropMark (lowerChars word.toList) = ns.map Nat.digitChar

/-- The hexadecimal digits in both cases. -/
def alphabet : List Char :=
  "0123456789abcdefABCDEF".toList

/-- What is written behind `0x` or `0X`. -/
def written : List Char → List Char
  | '0' :: 'x' :: rest => rest
  | '0' :: 'X' :: rest => rest
  | cs => cs

/-- At most sixty-four hexadecimal digits in any case, behind `0x`, `0X` or nothing. -/
def isCanonical (word : String) : Bool :=
  let digits := written word.toList
  digits.length ≤ 64 && digits.all alphabet.contains

theorem dropMark_of_notMem {cs : List Char} (h : 'x' ∉ cs) : dropMark cs = cs := by
  rw [dropMark]
  rintro rest rfl
  exact h (by simp)

theorem dropMark_map_digitChar {ns : List Nat} (h : ∀ d ∈ ns, d < 16) :
    dropMark (ns.map Nat.digitChar) = ns.map Nat.digitChar :=
  dropMark_of_notMem (notMem_map_digitChar h (by decide))

theorem exists_digitChar_of_mem_alphabet :
    ∀ c ∈ alphabet, ∃ d < 16, c.toLower = Nat.digitChar d := by
  -- asked of the list, since a decision for all characters would try them all
  have hall : alphabet.all fun c => (List.range 16).any fun d => c.toLower = Nat.digitChar d := by
    decide
  intro c hc
  obtain ⟨d, hd, hlower⟩ := List.any_eq_true.mp (List.all_eq_true.mp hall c hc)
  exact ⟨d, List.mem_range.mp hd, of_decide_eq_true hlower⟩

/-- Hexadecimal digits in any case are the digits of a list of values. -/
theorem exists_map_digitChar {cs : List Char} (h : ∀ c ∈ cs, c ∈ alphabet) :
    ∃ ns : List Nat, (∀ d ∈ ns, d < 16) ∧ cs.map Char.toLower = ns.map Nat.digitChar := by
  induction cs with
  | nil => exact ⟨[], nofun, rfl⟩
  | cons c cs ih =>
    obtain ⟨ns, hns, hmap⟩ := ih fun e he => h e (List.mem_cons_of_mem c he)
    obtain ⟨d, hd, hc⟩ := exists_digitChar_of_mem_alphabet c (h c List.mem_cons_self)
    refine ⟨d :: ns, List.forall_mem_cons.mpr ⟨hd, hns⟩, ?_⟩
    rw [List.map_cons, List.map_cons, hc, hmap]

/-- A word is what is written behind its mark, or this behind a mark. -/
theorem eq_written_or (cs : List Char) :
    cs = written cs ∨ cs = '0' :: 'x' :: written cs ∨ cs = '0' :: 'X' :: written cs := by
  rw [written.eq_def]
  split
  · exact .inr (.inl rfl)
  · exact .inr (.inr rfl)
  · exact .inl rfl

theorem mem_alphabet_of_isCanonical {word : String} (h : isCanonical word) :
    ∀ c ∈ written word.toList, c ∈ alphabet := by
  obtain ⟨-, hdigits⟩ := Bool.and_eq_true_iff.mp h
  exact fun c hc => List.contains_iff_mem.mp (List.all_eq_true.mp hdigits c hc)

/-- Mark and digits of a canonical word are of ASCII and no blanks. -/
theorem plain_of_isCanonical {word : String} (h : isCanonical word) :
    ∀ c ∈ word.toList, c.toNat < 0x80 ∧ isBlank c = false := by
  have hall : ('x' :: 'X' :: alphabet).all fun c => c.toNat < 0x80 ∧ isBlank c = false := by decide
  have hwritten : written word.toList ⊆ 'x' :: 'X' :: alphabet := fun c hc =>
    List.mem_cons_of_mem _ (List.mem_cons_of_mem _ (mem_alphabet_of_isCanonical h c hc))
  have hword : word.toList ⊆ 'x' :: 'X' :: alphabet := by
    rcases eq_written_or word.toList with heq | heq | heq <;> rw [heq]
    · exact hwritten
    · exact List.cons_subset.mpr ⟨by decide, List.cons_subset.mpr ⟨by decide, hwritten⟩⟩
    · exact List.cons_subset.mpr ⟨by decide, List.cons_subset.mpr ⟨by decide, hwritten⟩⟩
  exact fun c hc => of_decide_eq_true (List.all_eq_true.mp hall c (hword hc))

/-- A canonical word spells the values of its digits. -/
theorem spells_of_map {word : String} {ns : List Nat} (h : isCanonical word)
    (hns : ∀ d ∈ ns, d < 16)
    (hmap : (written word.toList).map Char.toLower = ns.map Nat.digitChar) : Spells word ns := by
  obtain ⟨hlength, -⟩ := Bool.and_eq_true_iff.mp h
  have hlen : ns.length = (written word.toList).length := by
    have hlengths := congrArg List.length hmap
    rw [List.length_map, List.length_map] at hlengths
    exact hlengths.symm
  have hplain := plain_of_isCanonical h
  refine ⟨hns, hlen ▸ of_decide_eq_true hlength,
    trim_of_forall_not fun c hc => (hplain c hc).2, ?_⟩
  rw [lowerChars_of_forall_lt fun c hc => (hplain c hc).1]
  rcases eq_written_or word.toList with heq | heq | heq <;> rw [heq]
  · rw [hmap, dropMark_map_digitChar hns]
  · exact hmap
  · exact hmap

/-- The value of a hexadecimal digit in any case. -/
def hexValue (c : Char) : Nat :=
  "0123456789abcdef".toList.idxOf c.toLower

/-- The number that the digits of a word write. -/
def number (word : String) : Nat :=
  ofDigits 16 ((written word.toList).map hexValue)

/-- A canonical word spells the digits of its number. -/
theorem exists_spells {word : String} (h : isCanonical word) :
    ∃ ns, Spells word ns ∧ ofDigits 16 ns = number word := by
  obtain ⟨ns, hns, hmap⟩ := exists_map_digitChar (mem_alphabet_of_isCanonical h)
  refine ⟨ns, spells_of_map h hns hmap, congrArg (ofDigits 16) ?_⟩
  have hvalue : ∀ d < 16, "0123456789abcdef".toList.idxOf (Nat.digitChar d) = d := by decide
  calc ns = (ns.map Nat.digitChar).map "0123456789abcdef".toList.idxOf := by
        rw [List.map_map]
        exact (List.map_id' ns).symm.trans
          (List.map_congr_left fun d hd => (hvalue d (hns d hd)).symm)
    _ = ((written word.toList).map Char.toLower).map "0123456789abcdef".toList.idxOf := by rw [hmap]
    _ = (written word.toList).map hexValue := List.map_map

/-! ### Readings -/

theorem digitChar_plain : ∀ d < 16, (Nat.digitChar d).toNat < 0x80 ∧
    isBlank (Nat.digitChar d) = false ∧ (Nat.digitChar d).toLower = Nat.digitChar d := by decide

theorem plain_of_mem_map_digitChar {ns : List Nat} (h : ∀ d ∈ ns, d < 16) :
    ∀ c ∈ ns.map Nat.digitChar, c.toNat < 0x80 ∧ isBlank c = false ∧ c.toLower = c := by
  intro c hc
  obtain ⟨d, hd, rfl⟩ := List.mem_map.mp hc
  exact digitChar_plain d (h d hd)

theorem strip_map_digitChar {ns : List Nat} (h : ∀ d ∈ ns, d < 16) :
    strip (ns.map Nat.digitChar) = ns.map Nat.digitChar :=
  trim_of_forall_not fun c hc => (plain_of_mem_map_digitChar h c hc).2.1

theorem lowerChars_map_digitChar {ns : List Nat} (h : ∀ d ∈ ns, d < 16) :
    lowerChars (ns.map Nat.digitChar) = ns.map Nat.digitChar := by
  refine lowerChars_eq_self fun c hc => ?_
  obtain ⟨hascii, -, hlower⟩ := plain_of_mem_map_digitChar h c hc
  exact ⟨hascii, hlower⟩

/-- Digits in lower case are read as they stand. -/
theorem bare_map_digitChar {ns : List Nat} (h : ∀ d ∈ ns, d < 16) :
    bare (ns.map Nat.digitChar) = ns.map Nat.digitChar := by
  rw [bare, strip_map_digitChar h, lowerChars_map_digitChar h, dropMark_map_digitChar h]

theorem readHex?_map_digitChar {ns : List Nat} (h : ∀ d ∈ ns, d < 16) (hne : ns ≠ []) :
    readHex? (ns.map Nat.digitChar) = some (ofDigits 16 ns : Int) := by
  have hwhite : ∀ c ∈ ns.map Nat.digitChar, isWhite c = false := fun c hc =>
    isWhite_of_isBlank_eq_false (plain_of_mem_map_digitChar h c hc).2.1
  have hmagnitude : hexMagnitude? (ns.map Nat.digitChar) = some (ofDigits 16 ns) := by
    rw [hexMagnitude?, dropHexMark_map_digitChar h, digits?_map_digitChar h hne, Option.map_some]
  rw [readHex?, trim_of_forall_not hwhite, signed]
  · rw [hmagnitude]
    rfl
  · rintro cs heq
    exact notMem_map_digitChar h (by decide : digitIn? 16 '-' = none) (by simp [heq])
  · rintro cs heq
    exact notMem_map_digitChar h (by decide : digitIn? 16 '+' = none) (by simp [heq])

/-- What is bare digits denotes the number with these digits. -/
theorem intOfChars?_of_bare {cs : List Char} {ns : List Nat} (h : ∀ d ∈ ns, d < 16)
    (hbare : bare cs = ns.map Nat.digitChar) : intOfChars? cs = some (ofDigits 16 ns : Int) := by
  rw [intOfChars?, hbare]
  cases ns with
  | nil => rfl
  | cons d ns => exact readHex?_map_digitChar h (List.cons_ne_nil d ns)

/-- All readings of the word are readings of the number `n`. -/
structure Denotes (word : String) (n : Nat) : Prop where
  lt : n < 16 ^ 64
  toInt? : Word.toInt? word = some (n : Int)
  normalize : Word.normalize word = String.ofList (hexDigits 64 n)
  address? : Word.address? word = some (String.ofList ('0' :: 'x' :: hexDigits 40 n))
  wordChars : Memory.wordChars word = hexDigits 64 n

theorem leftpad_map_digitChar {ns : List Nat} {width : Nat} (h : ∀ d ∈ ns, d < 16)
    (hlength : ns.length ≤ width) :
    List.leftpad width '0' (ns.map Nat.digitChar) = hexDigits width (ofDigits 16 ns) := by
  rw [hexDigits, ← leftpad_eq_digitsOf h hlength, List.leftpad, List.leftpad, List.map_append,
    List.map_replicate, List.length_map]
  rfl

/-- The last forty digits of a number. -/
theorem lowForty_map_digitChar {ns : List Nat} (h : ∀ d ∈ ns, d < 16) :
    lowForty (ns.map Nat.digitChar) = hexDigits 40 (ofDigits 16 ns) := by
  rw [lowForty, List.length_map]
  rcases Nat.le_total ns.length 40 with hle | hle
  · rw [Nat.sub_eq_zero_of_le hle, List.drop_zero, leftpad_map_digitChar h hle]
  · obtain ⟨k, hk⟩ := Nat.exists_eq_add_of_le' hle
    have hdigits : digitsOf k (ofDigits 16 ns / 16 ^ 40) ++ digitsOf 40 (ofDigits 16 ns) = ns := by
      rw [← digitsOf_add, ← hk, digitsOf_ofDigits h]
    have hlast : (digitsOf k (ofDigits 16 ns / 16 ^ 40) ++ digitsOf 40 (ofDigits 16 ns)).drop k =
        digitsOf 40 (ofDigits 16 ns) := List.drop_left' (length_digitsOf k _)
    rw [hdigits] at hlast
    rw [hk, Nat.add_sub_cancel, ← List.map_drop, hlast, ← hexDigits, List.leftpad, hexDigits,
      List.length_map, length_digitsOf, Nat.sub_self, List.replicate_zero, List.nil_append]

/-- A word of digits denotes the number with these digits. -/
theorem Spells.denotes {word : String} {ns : List Nat} (h : Spells word ns) :
    Denotes word (ofDigits 16 ns) where
  lt := Nat.lt_of_lt_of_le (ofDigits_lt h.lt) (Nat.pow_le_pow_right (by decide) h.length)
  toInt? := by
    refine intOfChars?_of_bare h.lt ?_
    rw [bare, h.strip, h.lower]
  normalize := by
    rw [Word.normalize, h.lower, leftpad_map_digitChar h.lt h.length]
  address? := by
    have hbare : bare word.toList = ns.map Nat.digitChar := by rw [bare, h.strip, h.lower]
    rw [Word.address?, hbare, intOfChars?_of_bare h.lt (bare_map_digitChar h.lt),
      lowForty_map_digitChar h.lt]
    rfl
  wordChars := by
    rw [Memory.wordChars, h.lower, List.length_map, Nat.sub_eq_zero_of_le h.length, List.drop_zero,
      leftpad_map_digitChar h.lt h.length]

/-- **All readings of a canonical word are readings of the number that its digits write.** -/
theorem denotes_number {word : String} (h : isCanonical word) : Denotes word (number word) := by
  obtain ⟨ns, hns, hnumber⟩ := exists_spells h
  exact hnumber ▸ hns.denotes

theorem exists_denotes {word : String} (h : isCanonical word) : ∃ n, Denotes word n :=
  ⟨_, denotes_number h⟩

/-- Two words denote integers that agree modulo `2 ^ 160`, the range of addresses. -/
def Congruent (a b : String) : Prop :=
  ∃ m n : Int, Word.toInt? a = some m ∧ Word.toInt? b = some n ∧ m ≡ n [ZMOD 2 ^ 160]

/-- **Addresses are compared as texts, but they are equal as numbers.** -/
theorem address?_eq_iff {a b : String} (ha : isCanonical a) (hb : isCanonical b) :
    Word.address? a = Word.address? b ↔ Congruent a b := by
  obtain ⟨m, hm⟩ := exists_denotes ha
  obtain ⟨n, hn⟩ := exists_denotes hb
  have hrange : (2 : Int) ^ 160 = ((16 ^ 40 : Nat) : Int) := by decide
  have hcongruent : Congruent a b ↔ m ≡ n [MOD 16 ^ 40] := by
    rw [Congruent, hm.toInt?, hn.toInt?, hrange]
    constructor
    · rintro ⟨_, _, ⟨⟩, ⟨⟩, h⟩
      exact Int.natCast_modEq_iff.mp h
    · exact fun h => ⟨m, n, rfl, rfl, Int.natCast_modEq_iff.mpr h⟩
  rw [hcongruent, ← hexDigits_eq_iff, hm.address?, hn.address?, Option.some_inj, String.ofList_inj,
    List.cons_inj_right, List.cons_inj_right]

/-! ### Normal form -/

/-- The canonical digits of a number below the range of words are a spelling of it. -/
theorem denotes_hexDigits {n : Nat} (h : n < 16 ^ 64) :
    Denotes (String.ofList (hexDigits 64 n)) n := by
  have hlt : ∀ d ∈ digitsOf 64 n, d < 16 := fun d => lt_of_mem_digitsOf
  have hspells : Spells (String.ofList (hexDigits 64 n)) (digitsOf 64 n) := by
    refine ⟨hlt, Nat.le_of_eq (length_digitsOf 64 n), ?_, ?_⟩
    all_goals rw [String.toList_ofList, hexDigits]
    · exact strip_map_digitChar hlt
    · rw [lowerChars_map_digitChar hlt, dropMark_map_digitChar hlt]
  have hdenotes := hspells.denotes
  rwa [ofDigits_digitsOf h] at hdenotes

variable {word : String}

/-- The normal form of a word denotes the same number. -/
theorem Denotes.denotes_normalize {n : Nat} (h : Denotes word n) :
    Denotes (Word.normalize word) n := by
  rw [h.normalize]
  exact denotes_hexDigits h.lt

theorem toInt?_normalize (h : isCanonical word) : toInt? (normalize word) = toInt? word := by
  obtain ⟨n, hn⟩ := exists_denotes h
  rw [hn.denotes_normalize.toInt?, hn.toInt?]

theorem address?_normalize (h : isCanonical word) : address? (normalize word) = address? word := by
  obtain ⟨n, hn⟩ := exists_denotes h
  rw [hn.denotes_normalize.address?, hn.address?]

theorem normalize_normalize (h : isCanonical word) :
    normalize (normalize word) = normalize word := by
  obtain ⟨n, hn⟩ := exists_denotes h
  rw [hn.denotes_normalize.normalize, hn.normalize]

/-- Words have the same normal form exactly if they denote the same number. -/
theorem Denotes.normalize_eq_iff {a b : String} {m n : Nat} (ha : Denotes a m) (hb : Denotes b n) :
    Word.normalize a = Word.normalize b ↔ m = n := by
  rw [ha.normalize, hb.normalize, String.ofList_inj, hexDigits_eq_iff, Nat.ModEq,
    Nat.mod_eq_of_lt ha.lt, Nat.mod_eq_of_lt hb.lt]

/-- Words that denote the same integer have the same normal form. -/
theorem normalize_eq_of_toInt?_eq {a b : String} (ha : isCanonical a) (hb : isCanonical b)
    (h : toInt? a = toInt? b) : normalize a = normalize b := by
  obtain ⟨m, hm⟩ := exists_denotes ha
  obtain ⟨n, hn⟩ := exists_denotes hb
  rw [hm.toInt?, hn.toInt?, Option.some_inj, Int.ofNat_inj] at h
  exact (hm.normalize_eq_iff hn).mpr h

end Word

namespace Memory

open Numeral

variable {word : String}

theorem isGap_digitChar : ∀ d < 16, isGap (Nat.digitChar d) = false ∧
    nibble? (Nat.digitChar d) = some d := by decide

theorem ofNat_nibbles (n : Nat) : UInt8.ofNat (16 * (n / 16 % 16) + n % 16) = UInt8.ofNat n := by
  refine UInt8.toNat_inj.mp ?_
  rw [UInt8.toNat_ofNat', UInt8.toNat_ofNat']
  omega

/-- Digits in pairs are bytes. -/
theorem bytesOfPairs?_hexDigits (width n : Nat) :
    bytesOfPairs? (hexDigits (2 * width) n) = some (bytesOf width n) := by
  induction width with
  | zero => rfl
  | succ width ih =>
    have hdigits : hexDigits (2 * (width + 1)) n =
        Nat.digitChar (n / 256 ^ width / 16 % 16) :: Nat.digitChar (n / 256 ^ width % 16) ::
          hexDigits (2 * width) n := by
      have hwidth : 2 * (width + 1) = 2 + 2 * width := by omega
      rw [hexDigits, hwidth, digitsOf_add, Nat.pow_mul, List.map_append]
      rfl
    have hhigh := isGap_digitChar (n / 256 ^ width / 16 % 16) (Nat.mod_lt _ (by decide))
    have hlow := isGap_digitChar (n / 256 ^ width % 16) (Nat.mod_lt _ (by decide))
    rw [hdigits, bytesOfPairs?, if_neg (by rw [hhigh.1]; exact Bool.false_ne_true), hhigh.2, hlow.2,
      ih, bytesOf_succ_eq_cons, ← ofNat_nibbles (n / 256 ^ width)]
    rfl

/-- A word is read as the thirty-two bytes of the number that it denotes. -/
theorem wordBytes?_of_denotes {n : Nat} (h : Word.Denotes word n) :
    wordBytes? word = some (bytesOf 32 n) := by
  rw [wordBytes?, h.wordChars]
  exact bytesOfPairs?_hexDigits 32 n

/-- Canonical words can be read as words of a memory. -/
theorem isSome_wordBytes? (h : Word.isCanonical word) : (wordBytes? word).isSome := by
  obtain ⟨n, hn⟩ := Word.exists_denotes h
  rw [wordBytes?_of_denotes hn, Option.isSome_some]

theorem wordBytes?_normalize (h : Word.isCanonical word) :
    wordBytes? (Word.normalize word) = wordBytes? word := by
  obtain ⟨n, hn⟩ := Word.exists_denotes h
  rw [wordBytes?_of_denotes hn.denotes_normalize, wordBytes?_of_denotes hn]

theorem unreadable_eq_nil {words : List String} (h : ∀ w ∈ words, (wordBytes? w).isSome) :
    unreadable words = [] := by
  refine List.filter_eq_nil_iff.mpr fun w hw => ?_
  rw [Option.isNone_iff_eq_none, ← ne_eq, ← Option.isSome_iff_ne_none]
  exact h w hw

end Memory

end TraceAudit
