import TraceAudit.Detector.Arithmetic
import TraceAudit.Proofs.BigEndian

/-!
# Payloads of panics

The payload of a revert is a window of the memory, which may start anywhere and need not respect the
words that the memory is written in. What decodes to a panic is told by the bytes of the memory
alone (`Step.ShowsPanic`): the window is large enough for a mark and a code but not too large to be
read, the memory reaches as far as the code does, and the mark is there. Then the code is the number
behind the mark, whatever else is in the window.

A window that the memory covers in part is cut and not filled up, so a mark at the end of the memory
without all of its code is no panic.
-/

namespace TraceAudit

namespace Memory

variable {bytes : List UInt8}

theorem length_window (bytes : List UInt8) (offset size : Nat) :
    (window bytes offset size).length = min size (bytes.length - offset) := by
  simp [window]

/-- A window inside of a window is a window. -/
theorem window_window {o n a b : Nat} (h : a + b ≤ n) :
    window (window bytes o n) a b = window bytes (o + a) b := by
  simp only [window, List.drop_take, List.drop_drop, List.take_take]
  rw [Nat.min_eq_left (by omega)]

/-- What is written behind some bytes stands in the window behind them. -/
theorem window_append (before mid behind : List UInt8) :
    window (before ++ mid ++ behind) before.length mid.length = mid := by
  simp [window]

end Memory

open Memory

variable {s : Step} {maxBytes offset size : Int} {payload : List UInt8} {p : Panic}

/-- What is decoded of a payload: its mark, and the number behind it. -/
theorem Panic.ofPayload?_eq_some_iff :
    Panic.ofPayload? payload = some p ↔
      36 ≤ payload.length ∧ window payload 0 4 = Panic.mark ∧
        p.code = bigEndian (window payload 4 32) := by
  obtain ⟨code⟩ := p
  have hcode : (payload.take Panic.size).drop 4 = window payload 4 32 := List.drop_take ..
  have hmark : payload.take 4 = window payload 0 4 := by rw [window, List.drop_zero]
  rw [ofPayload?, hcode, hmark]
  simp only [Option.ite_none_right_eq_some, Option.some.injEq, Panic.mk.injEq, and_assoc]
  exact and_congr_right fun _ => and_congr_right fun _ => eq_comm

namespace Step

theorem payloadWindow?_eq (hoffset : s.int? 0 = some offset) (hsize : s.int? 1 = some size) :
    s.payloadWindow? maxBytes =
      if 0 < size ∧ size ≤ maxBytes then some (offset, size) else none := by
  rw [payloadWindow?, hoffset, hsize]

/-- The payload of a revert is what its memory has in the window, unless it has nothing there. -/
theorem revertPayload?_eq_some_iff (hoffset : s.int? 0 = some offset)
    (hsize : s.int? 1 = some size) :
    s.revertPayload? maxBytes = some payload ↔
      0 ≤ offset ∧ 0 < size ∧ size ≤ maxBytes ∧
        window (flatten s.memory) offset.toNat size.toNat = payload ∧ payload ≠ [] := by
  rw [revertPayload?, payloadWindow?_eq hoffset hsize]
  by_cases hwindow : 0 < size ∧ size ≤ maxBytes
  · rw [if_pos hwindow, Option.bind_some]
    dsimp only
    by_cases hneg : offset < 0
    · have hread : Memory.read s.memory offset size false = [] := if_pos (.inr hneg)
      rw [hread]
      exact iff_of_false nofun fun h => absurd h.1 (Int.not_le.mpr hneg)
    · have hread : Memory.read s.memory offset size false =
          window (flatten s.memory) offset.toNat size.toNat := if_neg (by omega)
      rw [hread]
      cases window (flatten s.memory) offset.toNat size.toNat with
      | nil => simp [eq_comm]
      | cons b bytes =>
        rw [Option.some_inj]
        refine ⟨?_, fun h => h.2.2.2.1⟩
        rintro rfl
        exact ⟨Int.not_lt.mp hneg, hwindow.1, hwindow.2, rfl, List.cons_ne_nil b bytes⟩
  · rw [if_neg hwindow]
    exact iff_of_false nofun fun h => hwindow ⟨h.2.1, h.2.2.1⟩

/-- The window of a revert shows a panic. -/
structure ShowsPanic (memory : List UInt8) (offset size maxBytes : Int) : Prop where
  offset_nonneg : 0 ≤ offset
  size_ge : 36 ≤ size
  size_le : size ≤ maxBytes
  covered : offset + 36 ≤ memory.length
  mark : window memory offset.toNat 4 = [0x4E, 0x48, 0x7B, 0x71]

/-- The payload of a revert decodes to a panic if its window shows one, and the code is the number
behind the mark. -/
theorem bind_ofPayload?_eq_some_iff (hoffset : s.int? 0 = some offset)
    (hsize : s.int? 1 = some size) :
    (s.revertPayload? maxBytes).bind Panic.ofPayload? = some p ↔
      ShowsPanic (flatten s.memory) offset size maxBytes ∧
        p.code = bigEndian (window (flatten s.memory) (offset.toNat + 4) 32) := by
  simp only [Option.bind_eq_some_iff, revertPayload?_eq_some_iff hoffset hsize,
    Panic.ofPayload?_eq_some_iff]
  constructor
  · rintro ⟨_, ⟨hnonneg, -, hle, rfl, -⟩, hlength, hmark, hcode⟩
    rw [length_window] at hlength
    rw [window_window (by omega), Nat.add_zero] at hmark
    rw [window_window (by omega)] at hcode
    exact ⟨⟨hnonneg, by omega, hle, by omega, hmark⟩, hcode⟩
  · rintro ⟨⟨hnonneg, hge, hle, hcovered, hmark⟩, hcode⟩
    have hlength : 36 ≤ (window (flatten s.memory) offset.toNat size.toNat).length := by
      rw [length_window]
      omega
    refine ⟨_, ⟨hnonneg, by omega, hle, rfl, ?_⟩, hlength, ?_, ?_⟩
    · exact List.length_pos_iff.mp (by omega)
    · rw [window_window (by omega), Nat.add_zero]
      exact hmark
    · rw [window_window (by omega)]
      exact hcode

/-- **What decodes to a panic.** A revert whose operands can be read decodes to a panic exactly if
its window shows one, and then the code is the number behind the mark. So every code that a word has
room for is decoded from where it was written, whatever stands before the mark and behind the
code. -/
theorem decodes_iff_showsPanic (s : Step) (maxBytes offset size : Int)
    (hoffset : s.int? 0 = some offset) (hsize : s.int? 1 = some size) :
    (((s.revertPayload? maxBytes).bind Panic.ofPayload?).isSome ↔
      ShowsPanic (flatten s.memory) offset size maxBytes) ∧
    (∀ p, (s.revertPayload? maxBytes).bind Panic.ofPayload? = some p →
      p.code = Nat.ofDigits 256
        ((window (flatten s.memory) (offset.toNat + 4) 32).map UInt8.toNat).reverse) ∧
    ∀ (before behind : List UInt8) (code : Nat), code < 2 ^ 256 →
      flatten s.memory = before ++ [0x4E, 0x48, 0x7B, 0x71] ++ bytesOf 32 code ++ behind →
      offset = before.length → 36 ≤ size → size ≤ maxBytes →
        (s.revertPayload? maxBytes).bind Panic.ofPayload? = some ⟨code⟩ := by
  refine ⟨?_, fun p hp => ?_, fun before behind code hcode hmemory hstart hge hle => ?_⟩
  · rw [Option.isSome_iff_exists]
    simp only [bind_ofPayload?_eq_some_iff hoffset hsize]
    exact ⟨fun ⟨_, h, _⟩ => h, fun h => ⟨⟨_⟩, h, rfl⟩⟩
  · rw [← bigEndian_eq_ofDigits]
    exact ((bind_ofPayload?_eq_some_iff hoffset hsize).mp hp).2
  · have hmark := window_append before [0x4E, 0x48, 0x7B, 0x71] (bytesOf 32 code ++ behind)
    have hword := window_append (before ++ [0x4E, 0x48, 0x7B, 0x71]) (bytesOf 32 code) behind
    have hlength : (flatten s.memory).length = before.length + 36 + behind.length := by
      simp [hmemory]
      omega
    rw [← List.append_assoc, ← hmemory] at hmark
    rw [← hmemory, length_bytesOf, List.length_append] at hword
    have hplace : offset.toNat = before.length := by omega
    rw [bind_ofPayload?_eq_some_iff hoffset hsize, hplace]
    refine ⟨⟨by omega, hge, hle, by omega, hplace ▸ hmark⟩, ?_⟩
    exact ((congrArg bigEndian hword).trans (bigEndian_bytesOf (hcode.trans_eq (by norm_num)))).symm

/-- A revert whose payload starts two bytes before the end of a word and ends in the next but
one. -/
def unalignedRevert : Step :=
  ⟨0, 0, "REVERT", 95, 0, 1, ["0x1e", "0x40"], [
    "0000000000000000000000000000000000000000000000000000000000004e48",
    "7b71000000000000000000000000000000000000000000000000000000000000",
    "0011ffffffffffffffffffffffffffffffffffffffffffffffffffffffffffff"]⟩

/-- It decodes to the panic of arithmetic, if a payload may have as many bytes, whatever the bytes
behind the code are. -/
theorem decodes_iff_showsPanic_unalignedRevert :
    unalignedRevert.int? 0 = some 30 ∧ unalignedRevert.int? 1 = some 64 ∧
      ShowsPanic (flatten unalignedRevert.memory) 30 64 64 ∧
      (unalignedRevert.revertPayload? 64).bind Panic.ofPayload? = some ⟨0x11⟩ ∧
      (unalignedRevert.revertPayload? 63).bind Panic.ofPayload? = none := by
  have hoffset : unalignedRevert.int? 0 = some 30 := by decide +kernel
  have hsize : unalignedRevert.int? 1 = some 64 := by decide +kernel
  have hmemory : flatten unalignedRevert.memory =
      List.replicate 30 0 ++ [0x4E, 0x48, 0x7B, 0x71] ++ bytesOf 32 0x11 ++
        List.replicate 30 0xFF := by decide +kernel
  obtain ⟨hshows, -, hcode⟩ := decodes_iff_showsPanic unalignedRevert 64 30 64 hoffset hsize
  have hdecoded := hcode _ _ 0x11 (by decide) hmemory rfl (by decide) (by decide)
  obtain ⟨hlimit, -, -⟩ := decodes_iff_showsPanic unalignedRevert 63 30 64 hoffset hsize
  refine ⟨hoffset, hsize, hshows.mp (by rw [hdecoded]; rfl), hdecoded, ?_⟩
  rw [← Option.not_isSome_iff_eq_none, hlimit]
  exact fun h => absurd h.size_le (by decide)

end Step

end TraceAudit
