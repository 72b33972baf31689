import TraceAudit.Proofs.Address
import TraceAudit.Proofs.Calldata
import TraceAudit.Proofs.Frame.Refusal

/-!
# The operands of a call

Reconstruction knows the operands of calls by their places on the stack. Here they are described
as the machine has them: each call pops its operands in a fixed order (`CallOp.pops`), the words
that it pops stand for numbers, and the frame that it opens has the target, the value and the call
data that these numbers say (`Frame.Carries`). Call data is a window of the memory, byte by byte
(`Calldata.IsWindow`).

The numbers are those of canonical words (`Step.CanonicalOperands`), which all readers read alike.
In a trace where they are canonical nothing is refused, since no size is negative. The main
statement is `carries_of_build`.
-/

namespace TraceAudit

/-! ### The order of operands -/

/-- What a word that a call pops is for. -/
inductive Operand where
  | gas
  | target
  | value
  | offset
  | size
  | outOffset
  | outSize
  | salt
deriving DecidableEq, Repr

namespace CallOp

/-- The operands that a call pops, the top of the stack first. -/
def pops : CallOp → List Operand
  | call | callcode => [.gas, .target, .value, .offset, .size, .outOffset, .outSize]
  | delegatecall | staticcall => [.gas, .target, .offset, .size, .outOffset, .outSize]
  | create => [.value, .offset, .size]
  | create2 => [.value, .offset, .size, .salt]

/-- The place of an operand, counted from the top of the stack. -/
def place? (op : CallOp) (r : Operand) : Option Nat :=
  if r ∈ op.pops then some (op.pops.idxOf r) else none

/-- The layout of a call is the order of what it pops. -/
theorem layout_eq (op : CallOp) :
    op.layout = ⟨op.place? .target, op.place? .value, op.pops.idxOf .offset, op.pops.idxOf .size,
      op.pops.length⟩ := by
  cases op <;> rfl

theorem arity_layout (op : CallOp) : op.layout.arity = op.pops.length := by
  rw [layout_eq]

theorem place?_of_mem {op : CallOp} {r : Operand} (h : r ∈ op.pops) :
    op.place? r = some (op.pops.idxOf r) := if_pos h

theorem place?_of_notMem {op : CallOp} {r : Operand} (h : r ∉ op.pops) : op.place? r = none :=
  if_neg h

/-- Every call hands over data. -/
theorem window_mem_pops (op : CallOp) : .offset ∈ op.pops ∧ .size ∈ op.pops := by
  cases op <;> decide

end CallOp

/-! ### Operands as numbers -/

namespace Step

variable {s : Step} {op : CallOp} {r : Operand}

/-- The word that the call `op` takes from the stack for the operand `r`. -/
def operand? (s : Step) (op : CallOp) (r : Operand) : Option String :=
  (op.place? r).bind s.word?

/-- The number that the operand `r` of the call `op` stands for. -/
def argument (s : Step) (op : CallOp) (r : Operand) : Nat :=
  ((s.operand? op r).map Word.number).getD 0

/-- The words for target, value and call data of the call `op` are canonical. -/
def CanonicalOperands (s : Step) (op : CallOp) : Prop :=
  ∀ r ∈ [Operand.target, .value, .offset, .size], ∀ word ∈ s.operand? op r, Word.isCanonical word

instance (s : Step) (op : CallOp) : Decidable (s.CanonicalOperands op) :=
  inferInstanceAs (Decidable (∀ r ∈ _, ∀ word ∈ s.operand? op r, Word.isCanonical word))

/-- A call that is not too short on its stack reads each operand from a word that denotes it. -/
theorem exists_denotes_argument (h : s.CanonicalOperands op)
    (hlong : op.pops.length ≤ s.stack.length) (hr : r ∈ [Operand.target, .value, .offset, .size])
    (hpops : r ∈ op.pops) :
    ∃ word, s.word? (op.pops.idxOf r) = some word ∧ Word.Denotes word (s.argument op r) := by
  have hplace : op.pops.idxOf r < s.stack.length :=
    Nat.lt_of_lt_of_le (List.idxOf_lt_length_iff.mpr hpops) hlong
  obtain ⟨word, hword⟩ : ∃ word, s.word? (op.pops.idxOf r) = some word :=
    ⟨_, List.getElem?_eq_getElem hplace⟩
  have hoperand : s.operand? op r = some word := by
    rw [operand?, CallOp.place?_of_mem hpops, Option.bind_some, hword]
  refine ⟨word, hword, ?_⟩
  rw [argument, hoperand]
  exact Word.denotes_number (h r hr word hoperand)

theorem int?_eq_argument (h : s.CanonicalOperands op) (hlong : op.pops.length ≤ s.stack.length)
    (hr : r ∈ [Operand.target, .value, .offset, .size]) (hpops : r ∈ op.pops) :
    s.int? (op.pops.idxOf r) = some (s.argument op r : Int) := by
  obtain ⟨word, hword, hdenotes⟩ := exists_denotes_argument h hlong hr hpops
  rw [int?, hword, Option.bind_some, hdenotes.toInt?]

theorem address?_eq_argument (h : s.CanonicalOperands op) (hlong : op.pops.length ≤ s.stack.length)
    (hpops : .target ∈ op.pops) :
    s.address? (op.pops.idxOf .target) =
      some (Address.ofNat (s.argument op .target % 2 ^ 160)) := by
  obtain ⟨word, hword, hdenotes⟩ := exists_denotes_argument h hlong (by decide) hpops
  have hrange : (2 : Nat) ^ 160 = 16 ^ 40 := by decide
  have hdigits : Numeral.hexDigits 40 (s.argument op .target) =
      Numeral.hexDigits 40 (s.argument op .target % 16 ^ 40) :=
    Numeral.hexDigits_eq_iff.mpr (Nat.mod_modEq _ _).symm
  rw [address?, hword, Option.bind_some, hdenotes.address?, hrange,
    Address.ofNat_eq (Nat.mod_lt _ (by decide)), hdigits]

/-- Canonical words ask for no window of a negative size. -/
theorem not_negativeWindow (h : s.CanonicalOperands op) : ¬ s.NegativeWindow op := by
  intro hneg
  have hlong : op.pops.length ≤ s.stack.length := op.arity_layout.ge.trans hneg.arity
  obtain ⟨n, hn, hlt⟩ := hneg.size
  rw [CallOp.layout_eq, int?_eq_argument h hlong (by decide) op.window_mem_pops.2] at hn
  have := Option.some.inj hn
  omega

end Step

/-! ### Call data as text -/

namespace Memory

variable {bytes : List UInt8} {k : Nat}

/-- The two digits of a byte. -/
theorem pair_hexChars (h : k < bytes.length) :
    ((hexChars bytes).drop (2 * k)).take 2 = Numeral.hexDigits 2 (byteAt bytes k).toNat := by
  induction bytes generalizing k with
  | nil => exact absurd h (Nat.not_lt_zero k)
  | cons b bytes ih =>
    cases k with
    | zero =>
      have hhigh : b.toNat / 16 % 16 = b.toNat / 16 :=
        Nat.mod_eq_of_lt (by have := b.toNat_lt; omega)
      rw [hexChars_cons, byteAt, List.getElem?_cons_zero, Option.getD_some, Numeral.hexDigits]
      simp only [Numeral.digitsOf, hhigh]
      rfl
    | succ k =>
      rw [hexChars_cons, Nat.mul_add_one, List.drop_succ_cons, List.drop_succ_cons]
      exact ih (Nat.lt_of_succ_lt_succ h)

theorem isHex_hexChars (bytes : List UInt8) : Word.IsHex (hexChars bytes) := by
  intro c hc
  obtain ⟨b, -, hc⟩ := List.mem_flatMap.mp hc
  have hb := b.toNat_lt
  rcases List.mem_cons.mp hc with rfl | hc
  · exact Word.digitChar_mem _ (by omega)
  · rw [List.mem_singleton.mp hc]
    exact Word.digitChar_mem _ (by omega)

end Memory

namespace Calldata

open Memory

variable {memory : List String} {offset size : Nat} {bytes : List UInt8}

/-- The text is that of the `size` bytes of the memory from `offset` on: two digits for each of
them, which are zero past the end of the memory. -/
structure IsWindow (memory : List String) (offset size : Nat) (data : String) : Prop where
  mark : data.toList.take 2 = ['0', 'x']
  length : data.toList.length = 2 + 2 * size
  byte : ∀ k < size, (data.toList.drop (2 + 2 * k)).take 2 =
    Numeral.hexDigits 2 (byteAt (flatten memory) (offset + k)).toNat

theorem toList_text (bytes : List UInt8) :
    ("0x" ++ hex bytes).toList = '0' :: 'x' :: hexChars bytes := by
  rw [String.toList_append, hex, String.toList_ofList, String.toList_ofList]
  rfl

/-- Up to the limit, the data is a window. -/
theorem exists_read_isWindow (memory : List String) (offset : Nat) (hsize : size ≤ 2 ^ 20) :
    ∃ bytes, read memory (some (offset : Int)) (some (size : Int)) =
        .ok (some ("0x" ++ hex bytes)) ∧
      bytes.length = size ∧ IsWindow memory offset size ("0x" ++ hex bytes) := by
  have hoffset : (0 : Int) ≤ offset := Int.natCast_nonneg offset
  have hread : read memory (some (offset : Int)) (some (size : Int)) = _ :=
    read_eq_of_nonneg hsize hoffset
  rw [Memory.read_of_nonneg hoffset, Int.toNat_natCast] at hread
  have hlength : ((List.range size).map fun k => byteAt (flatten memory) (offset + k)).length =
      size := by rw [List.length_map, List.length_range]
  refine ⟨_, hread, hlength, ?_, ?_, fun k hk => ?_⟩
  all_goals rw [toList_text]
  · rfl
  · rw [List.length_cons, List.length_cons, length_hexChars, hlength]
    omega
  · rw [Nat.add_comm, List.drop_succ_cons, List.drop_succ_cons, pair_hexChars (by rwa [hlength]),
      byteAt, List.getElem?_map, List.getElem?_range hk]
    rfl

theorem read_of_lt (memory : List String) (offset : Int) (hsize : 2 ^ 20 < size) :
    read memory (some offset) (some (size : Int)) = .ok none := by
  have hmax : maxBytes < size := by rw [maxBytes]; omega
  rw [read, if_neg (by omega), if_pos hmax]

/-- The selector of data with four bytes is the text of these. -/
theorem selector?_text (bytes : List UInt8) : selector? ("0x" ++ hex bytes) =
    if bytes.length < 4 then none
    else some (String.ofList (("0x" ++ hex bytes).toList.take 10)) := by
  have htake : Text.lowerChars (('0' :: 'x' :: hexChars bytes).take 10) =
      ('0' :: 'x' :: hexChars bytes).take 10 :=
    Word.lowerChars_marked fun c hc => isHex_hexChars bytes c (List.mem_of_mem_take hc)
  rw [selector?, toList_text, htake, List.length_cons, List.length_cons, length_hexChars]
  exact if_congr (by omega) rfl rfl

end Calldata

/-! ### The frame of a call -/

namespace Frame

variable {s : Step} {op : CallOp} {f : Frame}

/-- The frame has the operands that the call `op` pops from a stack that is long enough. -/
structure Decodes (s : Step) (op : CallOp) (f : Frame) : Prop where
  target : f.target =
    if .target ∈ op.pops then some (Address.ofNat (s.argument op .target % 2 ^ 160)) else none
  value : f.value =
    if .value ∈ op.pops then some (Numeral.hex (s.argument op .value)) else some "0x0"
  empty : s.argument op .size = 0 → f.input = some "0x"
  large : 2 ^ 20 < s.argument op .size → f.input = none
  window : s.argument op .size ≤ 2 ^ 20 → ∃ data, f.input = some data ∧
    Calldata.IsWindow s.memory (s.argument op .offset) (s.argument op .size) data
  selector : f.selector =
    if op.creates ∨ s.argument op .size < 4 then none
    else f.input.map fun data => String.ofList (data.toList.take 10)

/-- The frame has the operands of the call `op` at the step, or none if the stack is too short. -/
structure Carries (s : Step) (op : CallOp) (f : Frame) : Prop where
  short : s.stack.length < op.pops.length →
    f.target = none ∧ f.value = none ∧ f.input = none ∧ f.selector = none
  long : op.pops.length ≤ s.stack.length → f.Decodes s op

theorem target_of_reads (hcanonical : s.CanonicalOperands op)
    (hlong : op.pops.length ≤ s.stack.length) (h : s.Reads op ⟨f.target, f.value, f.input⟩) :
    f.target =
      if .target ∈ op.pops then some (Address.ofNat (s.argument op .target % 2 ^ 160))
      else none := by
  have htarget : f.target = (op.place? .target).bind s.address? := by
    simpa only [CallOp.layout_eq] using h.target (op.arity_layout.le.trans hlong)
  split
  · next hpops =>
    rw [htarget, CallOp.place?_of_mem hpops, Option.bind_some,
      Step.address?_eq_argument hcanonical hlong hpops]
  · next hpops => rw [htarget, CallOp.place?_of_notMem hpops, Option.bind_none]

theorem value_of_reads (hcanonical : s.CanonicalOperands op)
    (hlong : op.pops.length ≤ s.stack.length) (h : s.Reads op ⟨f.target, f.value, f.input⟩) :
    f.value =
      if .value ∈ op.pops then some (Numeral.hex (s.argument op .value)) else some "0x0" := by
  have harity : op.layout.arity ≤ s.stack.length := op.arity_layout.le.trans hlong
  have hplace : op.layout.value = op.place? .value := by rw [CallOp.layout_eq]
  split
  · next hpops =>
    rw [CallOp.place?_of_mem hpops] at hplace
    exact (h.ownValue harity _ hplace).trans
      (by rw [Step.int?_eq_argument hcanonical hlong (by decide) hpops, Option.map_some])
  · next hpops =>
    rw [CallOp.place?_of_notMem hpops] at hplace
    exact h.noValue harity hplace

theorem read_of_reads (hcanonical : s.CanonicalOperands op)
    (hlong : op.pops.length ≤ s.stack.length) (h : s.Reads op ⟨f.target, f.value, f.input⟩) :
    Calldata.read s.memory (some (s.argument op .offset : Int)) (some (s.argument op .size : Int)) =
      .ok f.input := by
  obtain ⟨hoffset, hsize⟩ := op.window_mem_pops
  rw [← Step.int?_eq_argument hcanonical hlong (by decide) hoffset,
    ← Step.int?_eq_argument hcanonical hlong (by decide) hsize]
  simpa only [CallOp.layout_eq] using h.input (op.arity_layout.le.trans hlong)

/-- What a frame reads from the places of the stack is what the operands say. -/
theorem decodes_of_reads (hcanonical : s.CanonicalOperands op)
    (hlong : op.pops.length ≤ s.stack.length) (h : s.Reads op ⟨f.target, f.value, f.input⟩)
    (hselector : f.selector = if op.creates then none else f.input.bind Calldata.selector?) :
    f.Decodes s op := by
  have htarget := target_of_reads hcanonical hlong h
  have hvalue := value_of_reads hcanonical hlong h
  have hread := read_of_reads hcanonical hlong h
  rcases Nat.lt_or_ge (2 ^ 20) (s.argument op .size) with hlarge | hle
  · -- without data there is no selector either
    rw [Calldata.read_of_lt _ _ hlarge] at hread
    have hinput : f.input = none := (Except.ok.inj hread).symm
    refine ⟨htarget, hvalue, fun hzero => by omega, fun _ => hinput, fun hle => by omega, ?_⟩
    rw [hselector, hinput, Option.bind_none, Option.map_none, ite_self, ite_self]
  · obtain ⟨bytes, hbytes, hlength, hwindow⟩ :=
      Calldata.exists_read_isWindow s.memory (s.argument op .offset) hle
    have hinput : f.input = some ("0x" ++ Memory.hex bytes) :=
      Except.ok.inj (hread.symm.trans hbytes)
    refine ⟨htarget, hvalue, fun hzero => ?_, fun hlarge => by omega,
      fun _ => ⟨_, hinput, hwindow⟩, ?_⟩
    · rw [hzero, List.length_eq_zero_iff] at hlength
      rw [hinput, hlength]
      rfl
    · rw [hselector, hinput, Option.bind_some, Option.map_some, Calldata.selector?_text, hlength]
      by_cases hcreates : op.creates <;> simp [hcreates]

theorem carries_of_reads (hcanonical : s.CanonicalOperands op)
    (h : s.Reads op ⟨f.target, f.value, f.input⟩)
    (hselector : f.selector = if op.creates then none else f.input.bind Calldata.selector?) :
    f.Carries s op := by
  refine ⟨fun hshort => ?_, fun hlong => decodes_of_reads hcanonical hlong h hselector⟩
  have hnone := h.short (hshort.trans_eq op.arity_layout.symm)
  have htarget : f.target = none := congrArg CallOperands.target hnone
  have hvalue : f.value = none := congrArg CallOperands.value hnone
  have hinput : f.input = none := congrArg CallOperands.input hnone
  refine ⟨htarget, hvalue, hinput, ?_⟩
  rw [hselector, hinput, Option.bind_none, ite_self]

end Frame

namespace Nesting

variable {steps : List Step} {tx : Transaction} {i : Nat} {s : Step} {op : CallOp}

theorem exists_build_of_canonical
    (h : ∀ s ∈ steps, ∀ op, CallOp.ofName? s.op = some op → s.CanonicalOperands op) :
    ∃ c, CallFrames.build steps tx = .ok c :=
  exists_build fun s hs ⟨op, hop, hneg⟩ => Step.not_negativeWindow (h s hs op hop) hneg

theorem exists_carries_of_build {c : CallFrames} (h : CallFrames.build steps tx = .ok c)
    (hs : steps[i]? = some s) (hop : CallOp.ofName? s.op = some op)
    (hcanonical : s.CanonicalOperands op) :
    ∃ f parent, c.Opens i op parent f ∧ f.Carries s op := by
  obtain ⟨f, parent, hopens, hreads, hselector⟩ := opens_of_build h hs hop
  exact ⟨f, parent, hopens, Frame.carries_of_reads hcanonical hreads hselector⟩

/-- **The frame of a call has the operands that the call pops.** It is opened inside of the frame
that the call belongs to, whose target is its sender, and the canonical words of the call say what
is in it. If the words of all calls are canonical, there are frames. -/
theorem carries_of_build (steps : List Step) (tx : Transaction) :
    ((∀ s ∈ steps, ∀ op, CallOp.ofName? s.op = some op → s.CanonicalOperands op) →
        ∃ c, CallFrames.build steps tx = .ok c) ∧
      ∀ c, CallFrames.build steps tx = .ok c →
        ∀ (i : Nat) s op, steps[i]? = some s → CallOp.ofName? s.op = some op →
          s.CanonicalOperands op → ∃ f parent, c.Opens i op parent f ∧ f.Carries s op :=
  ⟨exists_build_of_canonical, fun _ h _ _ _ hs hop hcanonical =>
    exists_carries_of_build h hs hop hcanonical⟩

/-- A call whose data starts with the last four bytes of its memory and ends behind it. -/
def straddlingCall : Step :=
  ⟨0, 0, "CALL", 0, 3, 1, ["0xc350", "0x33", "0X1", "0x1C", "24", "0x0", "0x0"], ["0xa9059cbb"]⟩

theorem carries_of_build_straddlingCall :
    ∃ c f parent, CallFrames.build [straddlingCall] {} = .ok c ∧ c.Opens 0 .call parent f ∧
      f.Carries straddlingCall .call := by
  have hcanonical : straddlingCall.CanonicalOperands .call := by decide
  obtain ⟨hbuild, hcarries⟩ := carries_of_build [straddlingCall] {}
  obtain ⟨c, hc⟩ := hbuild fun s hs op hop => by
    obtain rfl := List.mem_singleton.mp hs
    obtain rfl : CallOp.call = op := Option.some.inj hop
    exact hcanonical
  obtain ⟨f, parent, hf⟩ := hcarries c hc 0 straddlingCall .call rfl rfl hcanonical
  exact ⟨c, f, parent, hc, hf⟩

end Nesting

end TraceAudit
