import TraceAudit.Proofs.Address
import TraceAudit.Raw
import TraceAudit.Step.Ingest

/-!
# One number for all decoders

Four decoders look at the text of a word, each with its own way to cut it and fill it up: as an
integer, as canonical digits, as an address and as bytes of a memory. Two encoders write integers as
such texts: ingestion where a node reports a number in place of a word, and the hexadecimal text of
a quantity. On canonical words all of them speak of one number, the one that the digits of the word
write (`Word.number`).

The main statement, `readAs_number_and_read_back`, takes the decoders at the values that callers
hand in, since two of them treat an empty word as one that is not given. The second encoder is not
bound to words: an integer of any size and sign is read back from its text (`Word.toInt?_hex`). The
sign of a negative one hides the mark from the decoder, and it is the reader of the magnitude that
drops it.
-/

namespace TraceAudit

namespace Numeral

/-! ### Written integers -/

theorem hexChars_natCast (n : Nat) : hexChars n = '0' :: 'x' :: Nat.toDigits 16 n := by
  rw [hexChars, if_neg (by omega), Int.natAbs_natCast, List.nil_append]

theorem hexChars_of_neg {n : Int} (h : n < 0) : hexChars n = '-' :: hexChars n.natAbs := by
  rw [hexChars_natCast, hexChars, if_pos h, List.singleton_append]

theorem mem_hexChars {n : Int} {c : Char} (h : c ∈ hexChars n) :
    c = '-' ∨ c = 'x' ∨ ∃ d < 16, c = Nat.digitChar d := by
  obtain ⟨ns, hns, -, hdigits⟩ := exists_toDigits n.natAbs
  rw [hexChars, hdigits, List.mem_append, List.mem_cons, List.mem_cons] at h
  rcases h with hsign | rfl | rfl | hc
  · split at hsign
    · exact .inl (List.mem_singleton.mp hsign)
    · exact absurd hsign List.not_mem_nil
  · exact .inr (.inr ⟨0, by decide, rfl⟩)
  · exact .inr (.inl rfl)
  · obtain ⟨d, hd, rfl⟩ := List.mem_map.mp hc
    exact .inr (.inr ⟨d, hns d hd, rfl⟩)

/-- The mark is passed over by the reader of the magnitude. -/
theorem hexMagnitude?_hexChars (n : Nat) : hexMagnitude? (hexChars n) = some n := by
  obtain ⟨ns, hns, hvalue, hdigits⟩ := exists_toDigits n
  have hne : ns ≠ [] := by
    rintro rfl
    exact Nat.toDigits_ne_nil hdigits
  have hmark : dropHexMark ('0' :: 'x' :: ns.map Nat.digitChar) = ns.map Nat.digitChar := by
    rw [dropHexMark, if_pos (by decide)]
    -- no underscore follows the mark
    intro more heq
    exact notMem_map_digitChar hns (by decide : digitIn? 16 '_' = none) (heq ▸ List.mem_cons_self)
  rw [hexChars_natCast, hdigits, hexMagnitude?, hmark, digits?_map_digitChar hns hne,
    Option.map_some, hvalue]

end Numeral

namespace Word

open Numeral Text

theorem plain_of_mem_hexChars {n : Int} {c : Char} (h : c ∈ hexChars n) :
    c.toNat < 0x80 ∧ isBlank c = false ∧ c.toLower = c := by
  rcases mem_hexChars h with rfl | rfl | ⟨d, hd, rfl⟩
  · decide
  · decide
  · exact digitChar_plain d hd

/-- A written integer is read as it stands, but for its mark. -/
theorem bare_hexChars (n : Int) : bare (hexChars n) = dropMark (hexChars n) := by
  have hlower : lowerChars (hexChars n) = hexChars n := by
    refine lowerChars_eq_self fun c hc => ?_
    obtain ⟨hascii, -, hlower⟩ := plain_of_mem_hexChars hc
    exact ⟨hascii, hlower⟩
  rw [bare, strip, trim_of_forall_not fun c hc => (plain_of_mem_hexChars hc).2.1, hlower]

theorem intOfChars?_natCast (n : Nat) : intOfChars? (hexChars n) = some (n : Int) := by
  obtain ⟨ns, hns, hvalue, hdigits⟩ := exists_toDigits n
  have hbare : bare (hexChars n) = ns.map Nat.digitChar := by
    rw [bare_hexChars, hexChars_natCast, dropMark, hdigits]
  rw [intOfChars?_of_bare hns hbare, hvalue]

theorem intOfChars?_of_neg {n : Int} (h : n < 0) : intOfChars? (hexChars n) = some n := by
  -- the mark stands behind the sign, where it is left to the reader of the number
  have hbare : bare (hexChars n) = hexChars n := by
    rw [bare_hexChars, hexChars_of_neg h]
    rfl
  have hsigned : signed hexMagnitude? ('-' :: hexChars n.natAbs) = some (-(n.natAbs : Int)) := by
    rw [signed, hexMagnitude?_hexChars]
    rfl
  have hwhite : ∀ c ∈ hexChars n, isWhite c = false := fun c hc =>
    isWhite_of_isBlank_eq_false (plain_of_mem_hexChars hc).2.1
  rw [intOfChars?, hbare, readHex?, trim_of_forall_not hwhite, hexChars_of_neg h, hsigned,
    Int.ofNat_natAbs_of_nonpos (Int.le_of_lt h), Int.neg_neg]
  rfl

/-- **A written integer is read back**, whatever its size and sign. -/
theorem toInt?_hex (n : Int) : toInt? (hex n) = some n := by
  rw [toInt?, hex, String.toList_ofList]
  rcases Int.lt_or_le n 0 with hneg | hnonneg
  · exact intOfChars?_of_neg hneg
  · obtain ⟨k, rfl⟩ := Int.eq_ofNat_of_zero_le hnonneg
    exact intOfChars?_natCast k

/-- Numbers below the range of words are written as canonical words. -/
theorem isCanonical_hex {n : Nat} (h : n < 16 ^ 64) : isCanonical (hex n) := by
  obtain ⟨ns, hns, -, hdigits⟩ := exists_toDigits n
  have hwritten : written (hex n).toList = Nat.toDigits 16 n := by
    rw [hex, String.toList_ofList, hexChars_natCast]
    rfl
  have hlength : (Nat.toDigits 16 n).length ≤ 64 :=
    (Nat.length_toDigits_le_iff (by decide) (by decide)).mpr h
  have hdigit : ∀ d < 16, alphabet.contains (Nat.digitChar d) := by decide
  rw [isCanonical, hwritten, Bool.and_eq_true, decide_eq_true_eq, hdigits, List.all_map,
    List.all_eq_true]
  exact ⟨hdigits ▸ hlength, fun d hd => hdigit d (hns d hd)⟩

theorem number_hex {n : Nat} (h : n < 16 ^ 64) : number (hex n) = n := by
  have hnumber := (denotes_number (isCanonical_hex h)).toInt?
  rw [toInt?_hex, Option.some_inj, Int.ofNat_inj] at hnumber
  exact hnumber.symm

end Word

namespace Raw

open Numeral

variable {word a b : String} {m n : Nat}

/-! ### Words that are given as texts -/

/-- Of the texts, only the empty one does not count as given. -/
theorem eq_empty_of_not_truthy (h : (!(Value.text word).truthy) = true) : word = "" := by
  simpa [Value.truthy] using h

theorem normalize_text (word : String) : normalize (.text word) = .ok (Word.normalize word) := by
  rw [normalize]
  split
  · next hempty => rw [eq_empty_of_not_truthy hempty]
  · rfl

theorem memoryWord_text (word : String) : memoryWord (.text word) = .ok word := by
  rw [memoryWord]
  split
  · next hempty => rw [eq_empty_of_not_truthy hempty]
  · rfl

theorem flatten_singleton (word : String) :
    flatten (.list [.text word]) = .ok (Memory.wordBytes word) := by
  have hmapM : [Value.text word].mapM memoryWord = .ok [word] := by
    rw [List.mapM_cons, memoryWord_text]
    rfl
  have hwords : memoryWords (.list [.text word]) = .ok [word] := hmapM
  rw [flatten, hwords]
  exact congrArg Except.ok (List.append_nil (Memory.wordBytes word))

/-! ### Agreement -/

/-- All decoders read the word as the number `n`: as an integer, with sixty-four digits, as the
address with this number modulo the range of addresses, and as thirty-two bytes. -/
structure ReadAs (word : String) (n : Nat) : Prop where
  lt : n < 2 ^ 256
  toInt? : Raw.toInt? (.text word) = .ok (some n)
  normalize : Raw.normalize (.text word) =
    .ok (String.ofList (List.leftpad 64 '0' (Nat.toDigits 16 n)))
  address? : Raw.address? (.text word) = .ok (some (Address.ofNat (n % 2 ^ 160)))
  flatten : Raw.flatten (.list [.text word]) = .ok (Memory.bytesOf 32 n)

theorem readAs_of_denotes (h : Word.Denotes word n) : ReadAs word n where
  lt := Nat.lt_of_lt_of_eq h.lt (by decide)
  toInt? := congrArg Except.ok h.toInt?
  normalize := by rw [normalize_text, h.normalize, leftpad_toDigits (by decide) h.lt]
  address? := by
    have hrange : 2 ^ 160 = 16 ^ 40 := by decide
    have hlow : hexDigits 40 n = hexDigits 40 (n % 16 ^ 40) :=
      hexDigits_eq_iff.mpr (Nat.mod_modEq n (16 ^ 40)).symm
    rw [Raw.address?, h.address?, hlow, hrange, Address.ofNat_eq (Nat.mod_lt n (by decide))]
  flatten := by
    rw [flatten_singleton, Memory.wordBytes, Memory.wordBytes?_of_denotes h, Option.getD_some]

theorem normalize_eq_iff (ha : Word.isCanonical a) (hb : Word.isCanonical b) :
    Raw.normalize (.text a) = Raw.normalize (.text b) ↔ Word.number a = Word.number b := by
  rw [normalize_text, normalize_text, Except.ok.injEq]
  exact (Word.denotes_number ha).normalize_eq_iff (Word.denotes_number hb)

/-- **One number for all decoders and encoders.** Canonical words are read as the number that their
digits write, and two of them have one normal form exactly if they write one number. A number below
the range of words is ingested as a canonical word that writes it, and the hexadecimal text of any
integer denotes this integer. -/
theorem readAs_number_and_read_back (a b : String) (ha : Word.isCanonical a)
    (hb : Word.isCanonical b) :
    ReadAs a (Word.number a) ∧
      (Raw.normalize (.text a) = Raw.normalize (.text b) ↔ Word.number a = Word.number b) ∧
      (∀ n : Nat, n < 2 ^ 256 → ∃ word, Step.wordOf (.int n) = .ok word ∧
        Word.isCanonical word ∧ Word.number word = n) ∧
      ∀ n : Int, ∃ text, Raw.hexText? (.int n) = .ok (some text) ∧
        Raw.toInt? (.text text) = .ok (some n) := by
  refine ⟨readAs_of_denotes (Word.denotes_number ha), normalize_eq_iff ha hb, ?_, ?_⟩
  · intro n hn
    have hlt : n < 16 ^ 64 := Nat.lt_of_lt_of_eq hn (by decide)
    exact ⟨hex n, rfl, Word.isCanonical_hex hlt, Word.number_hex hlt⟩
  · exact fun n => ⟨hex n, rfl, congrArg Except.ok (Word.toInt?_hex n)⟩

/-- A digit in front of the last forty is lost in the address, but not in the normal form. -/
theorem readAs_number_and_read_back_longWord :
    Word.isCanonical Word.longWord ∧ Word.isCanonical "dead" ∧
      ReadAs Word.longWord (2 ^ 160 + 0xdead) ∧ ReadAs "dead" 0xdead ∧
      Raw.normalize (.text Word.longWord) ≠ Raw.normalize (.text "dead") ∧
      0xdead < 2 ^ 256 ∧ (∃ word, Step.wordOf (.int (0xdead : Nat)) = .ok word ∧
        Word.isCanonical word ∧ Word.number word = 0xdead) ∧
      ∃ text, Raw.hexText? (.int (-0xdead)) = .ok (some text) ∧
        Raw.toInt? (.text text) = .ok (some (-0xdead)) := by
  have hlong : Word.isCanonical Word.longWord := by decide +kernel
  have hshort : Word.isCanonical "dead" := by decide +kernel
  have hlongNumber : Word.number Word.longWord = 2 ^ 160 + 0xdead := by decide +kernel
  have hshortNumber : Word.number "dead" = 0xdead := by decide +kernel
  obtain ⟨hreadLong, hnormal, hingested, hback⟩ :=
    readAs_number_and_read_back Word.longWord "dead" hlong hshort
  obtain ⟨hreadShort, -⟩ := readAs_number_and_read_back "dead" "dead" hshort hshort
  rw [hlongNumber] at hreadLong hnormal
  rw [hshortNumber] at hreadShort hnormal
  exact ⟨hlong, hshort, hreadLong, hreadShort, fun h => absurd (hnormal.mp h) (by decide),
    by decide, hingested 0xdead (by decide), hback (-0xdead)⟩

end Raw

end TraceAudit
