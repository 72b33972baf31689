import TraceAudit.Address
import TraceAudit.Proofs.Word

/-!
# Addresses of words

A word is read as a number and, apart from that, its text is cut and filled up to an address. Where
the text consists of hexadecimal digits the two agree: the address is that of the number modulo the
range of addresses (`Word.Addressed`), so that addresses are compared as numbers though they are
compared as texts.

Numbers are read leniently, and the cut knows nothing of it. A sign, an underscore, a digit of
another script or a second `0x` among the last forty characters becomes a part of the address, and
the address of a negative number is that of its absolute value. Whether a word is readable is also
judged twice, of the word and of its text behind the mark. The main statement,
`addressed_iff_and_same_iff`, says for every word whether it has the address of its number. The
argument is that readers of numbers only drop characters from the front (`suffix_of_dropHexMark`,
`suffix_of_digits?`): digits at the end of a readable text are the last digits of its number.
-/

namespace TraceAudit

namespace Numeral

open Text

variable {ns ds : List Nat} {u p r cs : List Char} {c : Char}

/-! ### Digits at the end of a numeral -/

/-- What stands in front of a character that does not occur in a text is not a part of the text. -/
theorem suffix_behind (hc : c ∉ u) (h : u <:+ p ++ c :: r) : u <:+ r := by
  induction p with
  | nil =>
    rcases List.suffix_cons_iff.mp h with rfl | h
    · exact absurd List.mem_cons_self hc
    · exact h
  | cons a p ih =>
    rcases List.suffix_cons_iff.mp h with rfl | h
    · exact absurd (List.mem_cons_of_mem a (List.mem_append_right p List.mem_cons_self)) hc
    · exact ih h

theorem suffix_dropWhile {q : Char → Bool} (hq : ∀ c ∈ u, q c = false) (h : u <:+ cs) :
    u <:+ cs.dropWhile q := by
  induction cs with
  | nil => exact h
  | cons c cs ih =>
    rw [List.dropWhile_cons]
    split
    · next hc =>
      refine ih (suffix_behind (p := []) (fun hmem => ?_) h)
      rw [hq c hmem] at hc
      exact nomatch hc
    · exact h

/-- Trimming keeps what ends in something else. -/
theorem suffix_trim {q : Char → Bool} (hq : ∀ c ∈ u, q c = false) (hne : u ≠ []) (h : u <:+ cs) :
    u <:+ trim q cs := by
  obtain ⟨w, hw⟩ := suffix_dropWhile hq h
  obtain ⟨c, v, hv⟩ := List.exists_cons_of_ne_nil (mt List.reverse_eq_nil_iff.mp hne)
  have hc : q c = false := hq c (List.mem_reverse.mp (hv ▸ List.mem_cons_self))
  -- the text ends in `c`, where dropping from the right stops
  have hkeep : (u.reverse ++ w.reverse).dropWhile q = u.reverse ++ w.reverse := by
    rw [hv, List.cons_append, List.dropWhile_cons_of_neg (by rw [hc]; exact Bool.false_ne_true)]
  rw [trim, ← hw, List.reverse_append, hkeep, ← List.reverse_append, List.reverse_reverse]
  exact List.suffix_append w u

theorem suffix_of_dropHexMark (hns : ∀ d ∈ ns, d < 16) (h : ns.map Nat.digitChar <:+ cs) :
    ns.map Nat.digitChar <:+ dropHexMark cs := by
  have hx := notMem_map_digitChar hns (by decide : digitIn? 16 'x' = none)
  have hX := notMem_map_digitChar hns (by decide : digitIn? 16 'X' = none)
  have hgap := notMem_map_digitChar hns (by decide : digitIn? 16 '_' = none)
  rw [dropHexMark.eq_def]
  split
  · next z x rest =>
    split
    · next hmark =>
      have hrest : ns.map Nat.digitChar <:+ rest := by
        rcases hmark.2 with rfl | rfl
        · exact suffix_behind (p := [z]) hx h
        · exact suffix_behind (p := [z]) hX h
      split
      · exact suffix_behind (p := []) hgap hrest
      · exact hrest
    · exact h
  · exact h

theorem suffix_of_digits? (hns : ∀ d ∈ ns, d < 16) (hne : ns ≠ [])
    (h : ns.map Nat.digitChar <:+ cs) (hread : digits? 16 cs = some ds) : ns <:+ ds := by
  have hgap := notMem_map_digitChar hns (by decide : digitIn? 16 '_' = none)
  induction cs using digits?.induct generalizing ds with
  | case1 => exact nomatch hread
  | case2 c =>
    rcases List.suffix_cons_iff.mp h with h | h
    · rw [← h, digits?_map_digitChar hns hne] at hread
      exact Option.some.inj hread ▸ List.suffix_refl ns
    · exact absurd (List.map_eq_nil_iff.mp (List.suffix_nil.mp h)) hne
  | case3 c rest ih =>
    rw [digits?] at hread
    obtain ⟨d, -, hread⟩ := Option.bind_eq_some_iff.mp hread
    obtain ⟨es, hes, rfl⟩ := Option.map_eq_some_iff.mp hread
    exact List.suffix_cons_iff.mpr (.inr (ih (suffix_behind (p := [c]) hgap h) hes))
  | case4 c rest hrest hunder ih =>
    rcases List.suffix_cons_iff.mp h with h | h
    · rw [← h, digits?_map_digitChar hns hne] at hread
      exact Option.some.inj hread ▸ List.suffix_refl ns
    · rw [digits?] at hread
      · obtain ⟨d, -, hread⟩ := Option.bind_eq_some_iff.mp hread
        obtain ⟨es, hes, rfl⟩ := Option.map_eq_some_iff.mp hread
        exact List.suffix_cons_iff.mpr (.inr (ih h hes))
      · exact hrest
      · exact hunder

theorem ofDigits_append_modEq (es ns : List Nat) :
    ofDigits 16 (es ++ ns) ≡ ofDigits 16 ns [MOD 16 ^ ns.length] := by
  induction ns using List.reverseRecOn with
  | nil => exact Nat.modEq_one
  | append_singleton ns d ih =>
    rw [← List.append_assoc, ofDigits_concat, ofDigits_concat, List.length_append,
      List.length_singleton, Nat.pow_succ]
    exact (ih.mul_right' 16).add_right d

/-- Behind the sign, if there is one, stands the absolute value. -/
theorem exists_of_signed {magnitude? : List Char → Option Nat} {n : Int}
    (h : signed magnitude? cs = some n) :
    ∃ rest, (cs = '-' :: rest ∨ cs = '+' :: rest ∨ cs = rest) ∧
      magnitude? rest = some n.natAbs := by
  have hnat : ∀ rest (f : Int → Int), (∀ m : Nat, (f m).natAbs = m) →
      (magnitude? rest >>= fun m => some (m : Int)).map f = some n →
      magnitude? rest = some n.natAbs := by
    intro rest f hf hmap
    obtain ⟨k, hk, rfl⟩ := Option.map_eq_some_iff.mp hmap
    obtain ⟨m, hm, hmk⟩ := Option.bind_eq_some_iff.mp hk
    rw [hm, ← Option.some.inj hmk, hf]
  rw [signed.eq_def] at h
  split at h
  · next rest => exact ⟨rest, .inl rfl, hnat rest _ (fun m => Int.natAbs_neg m) h⟩
  · next rest => exact ⟨rest, .inr (.inl rfl), hnat rest _ (fun _ => rfl) h⟩
  · exact ⟨_, .inr (.inr rfl), hnat _ _ (fun _ => rfl) h⟩

/-- **Digits at the end of a readable text are the last digits of its number**, whatever stands in
front of them. -/
theorem natAbs_modEq_of_suffix {n : Int} (hns : ∀ d ∈ ns, d < 16) (hne : ns ≠ [])
    (h : ns.map Nat.digitChar <:+ cs) (hread : readHex? cs = some n) :
    n.natAbs ≡ ofDigits 16 ns [MOD 16 ^ ns.length] := by
  have hwhite : ∀ c ∈ ns.map Nat.digitChar, isWhite c = false := fun c hc =>
    isWhite_of_isBlank_eq_false (Word.plain_of_mem_map_digitChar hns c hc).2.1
  have htrim := suffix_trim hwhite (mt List.map_eq_nil_iff.mp hne) h
  have hminus := notMem_map_digitChar hns (by decide : digitIn? 16 '-' = none)
  have hplus := notMem_map_digitChar hns (by decide : digitIn? 16 '+' = none)
  obtain ⟨rest, hsign, hmagnitude⟩ := exists_of_signed hread
  have hrest : ns.map Nat.digitChar <:+ rest := by
    rcases hsign with heq | heq | heq
    · exact suffix_behind (p := []) hminus (heq ▸ htrim)
    · exact suffix_behind (p := []) hplus (heq ▸ htrim)
    · exact heq ▸ htrim
  obtain ⟨ds, hds, hvalue⟩ := Option.map_eq_some_iff.mp hmagnitude
  obtain ⟨es, rfl⟩ := suffix_of_digits? hns hne (suffix_of_dropHexMark hns hrest) hds
  rw [← hvalue]
  exact ofDigits_append_modEq es ns

/-! ### Digits that are written -/

/-- The digits of a number are digits, and they denote it. -/
theorem exists_toDigits (n : Nat) : ∃ ns : List Nat, (∀ d ∈ ns, d < 16) ∧ ofDigits 16 ns = n ∧
    Nat.toDigits 16 n = ns.map Nat.digitChar := by
  induction n using Nat.strongRecOn with
  | ind n ih =>
    rcases Nat.lt_or_ge n 16 with hn | hn
    · refine ⟨[n], by simpa using hn, Nat.zero_add n, ?_⟩
      rw [Nat.toDigits_of_lt_base hn, List.map_singleton]
    · obtain ⟨ns, hns, hvalue, hdigits⟩ := ih (n / 16) (by omega)
      refine ⟨ns ++ [n % 16], ?_, ?_, ?_⟩
      · simp only [List.mem_append, List.mem_singleton]
        rintro d (hd | rfl)
        · exact hns d hd
        · omega
      · rw [ofDigits_concat, hvalue]
        omega
      · rw [Nat.toDigits_of_base_le (by decide) hn, hdigits, List.map_append, List.map_singleton]

theorem leftpad_toDigits {width n : Nat} (hwidth : 0 < width) (h : n < 16 ^ width) :
    List.leftpad width '0' (Nat.toDigits 16 n) = hexDigits width n := by
  obtain ⟨ns, hns, rfl, hdigits⟩ := exists_toDigits n
  have hlength := (Nat.length_toDigits_le_iff (by decide) hwidth).mpr h
  rw [hdigits, List.length_map] at hlength
  rw [hdigits, Word.leftpad_map_digitChar hns hlength]

end Numeral

namespace Word

open Numeral Text

/-- The characters are hexadecimal digits in lower case. -/
def IsHex (cs : List Char) : Prop :=
  ∀ c ∈ cs, c ∈ "0123456789abcdef".toList

-- characters are finitely many, and a decision for all of them would try them all
instance (cs : List Char) : Decidable (IsHex cs) :=
  List.decidableBAll (· ∈ "0123456789abcdef".toList) cs

variable {cs : List Char}

theorem digitChar_mem : ∀ d < 16, Nat.digitChar d ∈ "0123456789abcdef".toList := by decide

theorem isHex_iff : IsHex cs ↔ ∃ ns : List Nat, (∀ d ∈ ns, d < 16) ∧ cs = ns.map Nat.digitChar := by
  constructor
  · intro h
    have hdigit : ∀ c ∈ "0123456789abcdef".toList, ∃ d < 16, c = Nat.digitChar d := by
      have hall : "0123456789abcdef".toList.all fun c =>
          (List.range 16).any fun d => c = Nat.digitChar d := by decide
      intro c hc
      obtain ⟨d, hd, heq⟩ := List.any_eq_true.mp (List.all_eq_true.mp hall c hc)
      exact ⟨d, List.mem_range.mp hd, of_decide_eq_true heq⟩
    induction cs with
    | nil => exact ⟨[], nofun, rfl⟩
    | cons c cs ih =>
      obtain ⟨hc, hcs⟩ := List.forall_mem_cons.mp h
      obtain ⟨ns, hns, rfl⟩ := ih hcs
      obtain ⟨d, hd, rfl⟩ := hdigit c hc
      exact ⟨d :: ns, List.forall_mem_cons.mpr ⟨hd, hns⟩, rfl⟩
  · rintro ⟨ns, hns, rfl⟩ c hc
    obtain ⟨d, hd, rfl⟩ := List.mem_map.mp hc
    exact digitChar_mem d (hns d hd)

theorem isHex_hexDigits (width k : Nat) : IsHex (hexDigits width k) :=
  isHex_iff.mpr ⟨_, fun _ => lt_of_mem_digitsOf, rfl⟩

/-- Digits in lower case stay what they are, also behind a mark. -/
theorem lowerChars_marked (h : IsHex cs) : lowerChars ('0' :: 'x' :: cs) = '0' :: 'x' :: cs := by
  obtain ⟨ns, hns, rfl⟩ := isHex_iff.mp h
  refine lowerChars_eq_self fun c hc => ?_
  rcases List.mem_cons.mp hc with rfl | hc
  · decide
  · rcases List.mem_cons.mp hc with rfl | hc
    · decide
    · obtain ⟨hascii, -, hlower⟩ := plain_of_mem_map_digitChar hns c hc
      exact ⟨hascii, hlower⟩

end Word

namespace Address

open Numeral Text

variable {m n : Nat}

theorem ofNat_eq (h : n < 16 ^ 40) : ofNat n = String.ofList ('0' :: 'x' :: hexDigits 40 n) := by
  rw [ofNat, leftpad_toDigits (by decide) h]

theorem ofNat_inj (hm : m < 16 ^ 40) (hn : n < 16 ^ 40) : ofNat m = ofNat n ↔ m = n := by
  rw [ofNat_eq hm, ofNat_eq hn, String.ofList_inj, List.cons_inj_right, List.cons_inj_right,
    hexDigits_eq_iff, Nat.ModEq, Nat.mod_eq_of_lt hm, Nat.mod_eq_of_lt hn]

/-- Addresses are in lower case. -/
theorem lower_ofNat (h : n < 16 ^ 40) : lower (ofNat n) = ofNat n := by
  rw [lower, ofNat_eq h, String.toList_ofList, Word.lowerChars_marked (Word.isHex_hexDigits 40 n)]

theorem ofNat_ne_empty (n : Nat) : ofNat n ≠ "" := by
  intro h
  have hchars := congrArg String.toList h
  rw [ofNat, String.toList_ofList] at hchars
  exact nomatch hchars

theorem same_ofNat_iff (hm : m < 16 ^ 40) (hn : n < 16 ^ 40) :
    same (ofNat m) (ofNat n) = true ↔ m = n := by
  rw [same, lower_ofNat hm, lower_ofNat hn, ← ofNat_inj hm hn]
  simp [ofNat_ne_empty]

/-- The contracts that the machine provides have the numbers from one to nine. -/
theorem isPrecompile_ofNat_iff (h : n < 16 ^ 40) :
    isPrecompile (ofNat n) = true ↔ 1 ≤ n ∧ n ≤ 9 := by
  have hmem : ofNat n ∈ precompiles ↔ ∃ k < 9, k + 1 = n := by
    rw [precompiles, List.mem_map]
    refine exists_congr fun k => ?_
    rw [List.mem_range]
    refine and_congr_right fun hk => ofNat_inj (Nat.lt_trans (Nat.succ_lt_succ hk) ?_) h
    decide
  rw [isPrecompile, lower_ofNat h, Bool.and_eq_true, decide_eq_true_eq, decide_eq_true_eq, hmem]
  refine ⟨fun ⟨_, k, hk, hkn⟩ => by omega, fun hn => ⟨ofNat_ne_empty n, n - 1, by omega⟩⟩

end Address

namespace Word

open Numeral Text

/-- The word has the address of its number: forty digits of the number modulo the range of
addresses, or none if it has no number. -/
def Addressed (word : String) : Prop :=
  address? word = (toInt? word).map fun n => Address.ofNat (n % 2 ^ 160).toNat

instance (word : String) : Decidable (Addressed word) :=
  inferInstanceAs (Decidable (_ = _))

variable {word a b x y : String} {m n : Int}

/-- The range of addresses is that of forty hexadecimal digits. -/
theorem toNat_emod_lt (n : Int) : (n % 2 ^ 160).toNat < 16 ^ 40 := by
  have hrange : (2 : Int) ^ 160 = ((16 ^ 40 : Nat) : Int) := by decide
  rw [hrange]
  omega

/-- Forty digits that a number modulo the range of addresses has are those of a natural number if
the two are congruent. -/
theorem hexDigits_emod_eq_iff (n : Int) (k : Nat) :
    hexDigits 40 (n % 2 ^ 160).toNat = hexDigits 40 k ↔ (k : Int) ≡ n [ZMOD 2 ^ 160] := by
  have hrange : (2 : Int) ^ 160 = ((16 ^ 40 : Nat) : Int) := by decide
  rw [hexDigits_eq_iff, ← Int.natCast_modEq_iff, hrange, Int.toNat_of_nonneg (by omega)]
  exact ⟨fun h => h.symm.trans (Int.mod_modEq n _), fun h => (Int.mod_modEq n _).trans h.symm⟩

theorem address?_eq (word : String) : address? word =
    (intOfChars? (bare word.toList)).map fun _ =>
      String.ofList ('0' :: 'x' :: lowForty (bare word.toList)) := rfl

theorem address?_of_isSome (h : (address? word).isSome) :
    address? word = some (String.ofList ('0' :: 'x' :: lowForty (bare word.toList))) := by
  rw [address?_eq] at h ⊢
  obtain ⟨_, h⟩ := Option.isSome_iff_exists.mp h
  obtain ⟨k, hk, -⟩ := Option.map_eq_some_iff.mp h
  rw [hk, Option.map_some]

/-- **The last forty characters of a readable text, if they are digits, are the last digits of its
number.** A shorter text is filled up, and then it consists of digits alone. -/
theorem lowForty_eq_of_toInt? (hint : toInt? word = some n)
    (hhex : IsHex (lowForty (bare word.toList))) :
    lowForty (bare word.toList) = hexDigits 40 n.natAbs := by
  obtain ⟨ns, hns, htail⟩ : ∃ ns : List Nat, (∀ d ∈ ns, d < 16) ∧
      (bare word.toList).drop ((bare word.toList).length - 40) = ns.map Nat.digitChar :=
    isHex_iff.mp fun c hc => hhex c (List.mem_append_right _ hc)
  have hlength := congrArg List.length htail
  rw [List.length_drop, List.length_map] at hlength
  have hpadded : lowForty (bare word.toList) = hexDigits 40 (ofDigits 16 ns) := by
    rw [lowForty, htail, leftpad_map_digitChar hns (by omega)]
  rw [hpadded, hexDigits_eq_iff]
  rw [toInt?, intOfChars?] at hint
  rcases Nat.lt_or_ge (bare word.toList).length 40 with hshort | hlong
  · rw [Nat.sub_eq_zero_of_le (Nat.le_of_lt hshort), List.drop_zero] at htail
    rw [← intOfChars?, intOfChars?_of_bare hns htail] at hint
    cases hint
    exact Nat.ModEq.refl _
  · have hne : ns ≠ [] := by
      rintro rfl
      rw [List.length_nil] at hlength
      omega
    have hsuffix : ns.map Nat.digitChar <:+ bare word.toList := htail ▸ List.drop_suffix _ _
    have hempty : (bare word.toList).isEmpty = false := by
      rw [List.isEmpty_eq_false_iff, ← List.length_pos_iff]
      omega
    simp only [hempty, Bool.false_eq_true, if_false] at hint
    have hmod := natAbs_modEq_of_suffix hns hne hsuffix hint
    have hforty : ns.length = 40 := by omega
    rw [hforty] at hmod
    exact hmod.symm

theorem addressed_iff_of_toInt? (hint : toInt? word = some n) :
    Addressed word ↔ (address? word).isSome ∧ IsHex (lowForty (bare word.toList)) ∧
      (n.natAbs : Int) ≡ n [ZMOD 2 ^ 160] := by
  rw [Addressed, hint, Option.map_some, Address.ofNat_eq (toNat_emod_lt n)]
  constructor
  · intro h
    have hsome : (address? word).isSome := by rw [h]; rfl
    rw [address?_of_isSome hsome, Option.some_inj, String.ofList_inj, List.cons_inj_right,
      List.cons_inj_right] at h
    have hhex : IsHex (lowForty (bare word.toList)) := h ▸ isHex_hexDigits _ _
    rw [lowForty_eq_of_toInt? hint hhex] at h
    exact ⟨hsome, hhex, (hexDigits_emod_eq_iff n _).mp h.symm⟩
  · rintro ⟨hsome, hhex, hmod⟩
    rw [address?_of_isSome hsome, lowForty_eq_of_toInt? hint hhex,
      (hexDigits_emod_eq_iff n _).mpr hmod]

theorem addressed_iff (word : String) :
    Addressed word ↔ (toInt? word = none ∧ address? word = none) ∨
      ∃ n, toInt? word = some n ∧ (address? word).isSome ∧
        IsHex (lowForty (bare word.toList)) ∧ (n.natAbs : Int) ≡ n [ZMOD 2 ^ 160] := by
  rcases hint : toInt? word with _ | n
  · rw [Addressed, hint, Option.map_none]
    simp
  · rw [addressed_iff_of_toInt? hint]
    simp

/-- Words that consist of digits have the addresses of their numbers, however long they are. -/
theorem addressed_of_isHex (h : IsHex (bare word.toList)) : Addressed word := by
  obtain ⟨ns, hns, hbare⟩ := isHex_iff.mp h
  have hint : toInt? word = some (ofDigits 16 ns : Int) := intOfChars?_of_bare hns hbare
  have haddress : (address? word).isSome := by
    rw [address?_eq, hbare, intOfChars?_of_bare hns (bare_map_digitChar hns)]
    rfl
  refine (addressed_iff_of_toInt? hint).mpr ⟨haddress, ?_, by rw [Int.natAbs_natCast]⟩
  rw [hbare, lowForty_map_digitChar hns]
  exact isHex_hexDigits _ _

/-! ### Comparison of addresses -/

theorem Addressed.exists_of_address? (h : Addressed word) (hx : address? word = some x) :
    ∃ n, toInt? word = some n ∧ x = Address.ofNat (n % 2 ^ 160).toNat := by
  rw [Addressed, hx] at h
  obtain ⟨n, hn, heq⟩ := Option.map_eq_some_iff.mp h.symm
  exact ⟨n, hn, heq.symm⟩

theorem toNat_emod_eq_iff : (m % 2 ^ 160).toNat = (n % 2 ^ 160).toNat ↔ m ≡ n [ZMOD 2 ^ 160] := by
  have hm := Int.emod_nonneg m (by decide : (2 : Int) ^ 160 ≠ 0)
  have hn := Int.emod_nonneg n (by decide : (2 : Int) ^ 160 ≠ 0)
  rw [Int.ModEq]
  omega

/-- The texts `x` and `y` are compared like the numbers of the words `a` and `b`, modulo the range
of addresses. -/
structure ComparedAs (a b x y : String) : Prop where
  eq_iff : x = y ↔ Congruent a b
  same_iff : Address.same x y = true ↔ Congruent a b
  isPrecompile_iff : Address.isPrecompile x = true ↔
    ∃ n, toInt? a = some n ∧ 1 ≤ n % 2 ^ 160 ∧ n % 2 ^ 160 ≤ 9

theorem Addressed.comparedAs (ha : Addressed a) (hb : Addressed b) (hx : address? a = some x)
    (hy : address? b = some y) : ComparedAs a b x y := by
  obtain ⟨m, hm, rfl⟩ := ha.exists_of_address? hx
  obtain ⟨n, hn, rfl⟩ := hb.exists_of_address? hy
  have hcongruent : Congruent a b ↔ m ≡ n [ZMOD 2 ^ 160] := by
    rw [Congruent, hm, hn]
    simp
  have hnonneg := Int.emod_nonneg m (by decide : (2 : Int) ^ 160 ≠ 0)
  refine ⟨?_, ?_, ?_⟩
  · rw [Address.ofNat_inj (toNat_emod_lt m) (toNat_emod_lt n), toNat_emod_eq_iff, hcongruent]
  · rw [Address.same_ofNat_iff (toNat_emod_lt m) (toNat_emod_lt n), toNat_emod_eq_iff, hcongruent]
  · rw [Address.isPrecompile_ofNat_iff (toNat_emod_lt m), hm]
    simp only [Option.some.injEq, exists_eq_left']
    omega

/-- **When a word has the address of its number.** It does if its text behind the mark consists of
digits. In general it does exactly if the word and its text behind the mark are both unreadable, or
both are readable, the last forty characters are digits, and the number has the last digits of its
absolute value. Addresses of such words are compared like their numbers. -/
theorem addressed_iff_and_same_iff (a b : String) :
    (Addressed a ↔ (toInt? a = none ∧ address? a = none) ∨
      ∃ n, toInt? a = some n ∧ (address? a).isSome ∧ IsHex (lowForty (bare a.toList)) ∧
        (n.natAbs : Int) ≡ n [ZMOD 2 ^ 160]) ∧
      (IsHex (bare a.toList) → Addressed a) ∧
      (Addressed a → Addressed b → ∀ x y, address? a = some x → address? b = some y →
        ComparedAs a b x y) :=
  ⟨addressed_iff a, addressed_of_isHex, fun ha hb _ _ hx hy => ha.comparedAs hb hx hy⟩

/-- A word with one digit more than an address. -/
def longWord : String :=
  "0x1000000000000000000000000000000000000dEaD"

/-- The digit in front is cut off. -/
theorem addressed_iff_and_same_iff_longWord :
    ∃ x y, address? longWord = some x ∧ address? "dead" = some y ∧
      ComparedAs longWord "dead" x y := by
  obtain ⟨-, hlong, hcompared⟩ := addressed_iff_and_same_iff longWord "dead"
  obtain ⟨-, hshort, -⟩ := addressed_iff_and_same_iff "dead" longWord
  exact ⟨_, _, rfl, rfl, hcompared (hlong (by decide)) (hshort (by decide)) _ _ rfl rfl⟩

/-- Words without the addresses of their numbers: an underscore among the last characters, the sign
of a number with more digits than an address, and a second mark before an underscore. -/
theorem not_addressed_lenient :
    (toInt? "0x1_0" = some 16 ∧
        address? "0x1_0" = some "0x00000000000000000000000000000000000001_0") ∧
      ¬ Addressed "0x1_0" ∧ ¬ Addressed ("-" ++ longWord) ∧ ¬ Addressed "0x0x_5" := by
  decide +kernel

end Word

end TraceAudit
