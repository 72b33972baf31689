import Mathlib.Algebra.Group.Nat.Defs
import Mathlib.Logic.Basic
import TraceAudit.Calldata

/-!
# Windows of a memory

Two readers take a window out of a memory and fill it up with zeros: `Memory.read` reads the
payloads of reverts, `Calldata.read` the data of calls. On windows that start at a position they
agree, byte by byte (`Memory.byteAt`).

They differ before the memory. `Memory.read` reads nothing there. `Calldata.read` takes both ends of
the window as indices, and a negative index counts from the end, so that bytes from elsewhere in the
memory appear in the data (`Calldata.wrappedByte`). The main statement,
`reads_agree_iff_offset_nonneg`, gives what each of them returns at every offset.
-/

namespace TraceAudit

namespace Memory

/-- The byte at a position: zero past the end. -/
def byteAt (bytes : List UInt8) (i : Nat) : UInt8 :=
  bytes[i]?.getD 0

variable {bytes : List UInt8} {i start stop size : Nat} {words : List String} {offset : Int}

theorem byteAt_of_le (h : bytes.length ≤ i) : byteAt bytes i = 0 := by
  rw [byteAt, List.getElem?_eq_none h, Option.getD_none]

theorem byteAt_of_getElem? {b : UInt8} (h : bytes[i]? = some b) : byteAt bytes i = b := by
  rw [byteAt, h, Option.getD_some]

/-- A part of the bytes that is filled up, byte by byte. -/
theorem padTo_part (h : stop ≤ start + size) :
    padTo size ((bytes.drop start).take (stop - start)) =
      (List.range size).map fun k => if start + k < stop then byteAt bytes (start + k) else 0 := by
  have hlength : ((bytes.drop start).take (stop - start)).length =
      min (stop - start) (bytes.length - start) := by rw [List.length_take, List.length_drop]
  refine List.ext_getElem? fun k => ?_
  rcases Nat.lt_or_ge k size with hk | hk
  · rw [List.getElem?_map, List.getElem?_range hk, Option.map_some, padTo]
    rcases Nat.lt_or_ge k (min (stop - start) (bytes.length - start)) with hpart | hpart
    · have hb := List.getElem?_eq_getElem (l := bytes) (i := start + k) (by omega)
      rw [List.getElem?_append_left (by omega), List.getElem?_take_of_lt (by omega),
        List.getElem?_drop, if_pos (by omega), byteAt_of_getElem? hb, hb]
    · -- behind the part stand zeros, and the part ends at `stop` or with the bytes
      rw [List.getElem?_append_right (by omega), List.getElem?_replicate_of_lt (by omega)]
      split
      · rw [byteAt_of_le (by omega)]
      · rfl
  · rw [List.getElem?_eq_none (by rw [padTo, List.length_append, List.length_replicate]; omega),
      List.getElem?_eq_none (by rw [List.length_map, List.length_range]; omega)]

/-- The bytes of a window, byte by byte. -/
theorem read_of_nonneg (h : 0 ≤ offset) :
    read words offset size true =
      (List.range size).map fun k => byteAt (flatten words) (offset.toNat + k) := by
  rcases Nat.eq_zero_or_pos size with rfl | hsize
  · exact if_pos (.inl (Int.le_refl 0))
  · have hpart : padTo size (((flatten words).drop offset.toNat).take
        (offset.toNat + size - offset.toNat)) = _ := padTo_part (Nat.le_refl _)
    rw [Nat.add_sub_cancel_left] at hpart
    rw [read, if_neg (by omega), if_pos rfl, Int.toNat_natCast, window, hpart]
    refine List.map_congr_left fun k hk => if_pos ?_
    have := List.mem_range.mp hk
    omega

theorem read_of_negative (h : offset < 0) : read words offset size true = [] :=
  if_pos (.inr h)

theorem hexChars_cons (b : UInt8) (bytes : List UInt8) :
    hexChars (b :: bytes) =
      Nat.digitChar (b.toNat / 16) :: Nat.digitChar (b.toNat % 16) :: hexChars bytes := rfl

theorem length_hexChars (bytes : List UInt8) : (hexChars bytes).length = 2 * bytes.length := by
  induction bytes with
  | nil => rfl
  | cons b bytes ih =>
    rw [hexChars_cons, List.length_cons, List.length_cons, ih, List.length_cons]
    omega

/-- Bytes of different number have different texts. -/
theorem length_eq_of_hex_eq {bytes' : List UInt8} (h : "0x" ++ hex bytes = "0x" ++ hex bytes') :
    bytes.length = bytes'.length := by
  have hchars := congrArg (fun s => s.toList.length) h
  simp only [hex, String.toList_append, String.toList_ofList, List.length_append,
    length_hexChars] at hchars
  omega

end Memory

namespace Calldata

open Memory

variable {bytes : List UInt8} {offset : Int} {size k : Nat} {memory : List String}

/-- The position that an integer names among `length` bytes: a negative one counts from their
end. -/
def position (length : Nat) (i : Int) : Int :=
  if i < 0 then i + length else i

/-- The byte at place `k` of a window whose ends are taken as indices, with zeros where the window
has left the bytes. -/
def wrappedByte (bytes : List UInt8) (offset : Int) (size k : Nat) : UInt8 :=
  let i := (position bytes.length offset).toNat + k
  if i < position bytes.length (offset + size) then byteAt bytes i else 0

theorem wrappedByte_of_nonneg (h : 0 ≤ offset) (hk : k < size) :
    wrappedByte bytes offset size k = byteAt bytes (offset.toNat + k) := by
  have hstart : position bytes.length offset = offset := if_neg (by omega)
  have hstop : position bytes.length (offset + size) = offset + size := if_neg (by omega)
  simp only [wrappedByte, hstart, hstop]
  exact if_pos (by omega)

theorem clampIndex_eq (length : Nat) (i : Int) :
    clampIndex length i = min (position length i).toNat length := rfl

/-- The end of a window lies at most its size behind its start. -/
theorem position_add_le (length : Nat) (offset : Int) (size : Nat) :
    (position length (offset + size)).toNat ≤ (position length offset).toNat + size := by
  rw [position, position]
  split <;> split <;> omega

theorem windowBytes_eq (bytes : List UInt8) (offset : Int) (size : Nat) :
    windowBytes bytes offset size = (List.range size).map (wrappedByte bytes offset size) := by
  rw [windowBytes]
  by_cases hoffset : offset < bytes.length
  · have hstart : (position bytes.length offset).toNat ≤ bytes.length := by
      rw [position]
      split <;> omega
    have hstop := position_add_le bytes.length offset size
    rw [if_pos hoffset, slice, clampIndex_eq, clampIndex_eq, Nat.min_eq_left hstart,
      padTo_part (by omega)]
    refine List.map_congr_left fun k _ => ?_
    simp only [wrappedByte]
    -- behind the last byte there are zeros on both sides
    rcases Nat.lt_or_ge ((position bytes.length offset).toNat + k) bytes.length with hin | hout
    · exact if_congr (by omega) rfl rfl
    · rw [byteAt_of_le hout, ite_self, ite_self]
  · have hzero : ∀ k ∈ List.range size, wrappedByte bytes offset size k = 0 := fun k hk => by
      rw [wrappedByte_of_nonneg (by omega) (List.mem_range.mp hk), byteAt_of_le (by omega)]
    rw [if_neg hoffset, List.map_congr_left hzero, List.map_const', List.length_range, padTo]
    rfl

/-- Call data is read in full up to the limit. -/
theorem read_of_le (hsize : size ≤ 2 ^ 20) :
    read memory (some offset) (some size) =
      .ok (some ("0x" ++ hex ((List.range size).map
        (wrappedByte (flatten memory) offset size)))) := by
  rcases Nat.eq_zero_or_pos size with rfl | hpos
  · rfl
  · have hmax : ¬ maxBytes < size := by rw [maxBytes]; omega
    rw [read, if_neg (by omega), if_neg hmax, if_neg (by omega), Int.toNat_natCast, windowBytes_eq]

/-- Before the memory, one reader finds nothing and the other one a byte for every place. -/
theorem nonneg_or_of_read_eq (hsize : size ≤ 2 ^ 20)
    (h : read memory (some offset) (some size) =
      .ok (some ("0x" ++ hex (Memory.read memory offset size true)))) :
    0 ≤ offset ∨ size = 0 := by
  rcases Int.lt_or_le offset 0 with hneg | hnonneg
  · rw [read_of_le hsize, read_of_negative hneg] at h
    have hlength := length_eq_of_hex_eq (Option.some.inj (Except.ok.inj h))
    rw [List.length_map, List.length_range] at hlength
    exact .inr hlength
  · exact .inl hnonneg

theorem read_eq_of_nonneg (hsize : size ≤ 2 ^ 20) (h : 0 ≤ offset) :
    read memory (some offset) (some size) =
      .ok (some ("0x" ++ hex (Memory.read memory offset size true))) := by
  have hbytes : ∀ k ∈ List.range size, wrappedByte (flatten memory) offset size k =
      byteAt (flatten memory) (offset.toNat + k) := fun k hk =>
    wrappedByte_of_nonneg h (List.mem_range.mp hk)
  rw [read_of_le hsize, Memory.read_of_nonneg h, List.map_congr_left hbytes]

/-- **The two readers agree exactly on windows that are empty or start at a position.** Up to the
limit of call data, `Calldata.read` gives the bytes of the window as text, where a negative offset
is counted from the end of the memory; `Memory.read` gives the same bytes, but nothing at a negative
offset. -/
theorem reads_agree_iff_offset_nonneg (memory : List String) (offset : Int) (size : Nat)
    (hsize : size ≤ 2 ^ 20) :
    read memory (some offset) (some size) =
        .ok (some ("0x" ++ hex ((List.range size).map
          (wrappedByte (flatten memory) offset size)))) ∧
      Memory.read memory offset size true =
        (if offset < 0 then []
          else (List.range size).map fun k => byteAt (flatten memory) (offset.toNat + k)) ∧
      (read memory (some offset) (some size) =
          .ok (some ("0x" ++ hex (Memory.read memory offset size true))) ↔
        0 ≤ offset ∨ size = 0) := by
  refine ⟨read_of_le hsize, ?_, ?_⟩
  · split
    · next hneg => exact read_of_negative hneg
    · next hneg => exact Memory.read_of_nonneg (Int.not_lt.mp hneg)
  · refine ⟨nonneg_or_of_read_eq hsize, fun h => ?_⟩
    rcases h with hoffset | rfl
    · exact read_eq_of_nonneg hsize hoffset
    · rw [read_of_le hsize, Memory.read, if_pos (.inl (Int.le_refl 0))]
      rfl

/-- A memory of one word whose bytes are all `0xff`. -/
def fullMemory : List String :=
  [String.ofList (List.replicate 64 'f')]

/-- A window that starts a word before the memory ends in it. -/
theorem reads_agree_iff_offset_nonneg_fullMemory :
    4 ≤ 2 ^ 20 ∧
      read fullMemory (some (-32)) (some (4 : Nat)) =
        .ok (some ("0x" ++ hex ((List.range 4).map
          (wrappedByte (flatten fullMemory) (-32) 4)))) ∧
      Memory.read fullMemory (-32) (4 : Nat) true = [] ∧
      (read fullMemory (some (-32)) (some (4 : Nat)) =
          .ok (some ("0x" ++ hex (Memory.read fullMemory (-32) (4 : Nat) true))) ↔
        (0 : Int) ≤ -32 ∨ 4 = 0) :=
  ⟨by decide, reads_agree_iff_offset_nonneg fullMemory (-32) 4 (by decide)⟩

/-- Four bytes of the memory show up in a window that lies before it. -/
theorem read_before_memory :
    read fullMemory (some (-32)) (some 4) = .ok (some "0xffffffff") ∧
      "0x" ++ hex (Memory.read fullMemory (-32) 4 true) = "0x" := by
  have hdata : "0x" ++ hex ((List.range 4).map (wrappedByte (flatten fullMemory) (-32) 4)) =
      "0xffffffff" := by decide +kernel
  exact ⟨(read_of_le (by decide)).trans (by rw [hdata]), by decide +kernel⟩

end Calldata

end TraceAudit
