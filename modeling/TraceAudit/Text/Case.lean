import TraceAudit.Text.CaseTable

/-!
# Lower and upper case

Case mapping of whole texts. An image may be longer than its character: `ß` becomes `SS` in upper
case, `İ` becomes an `i` with a combining dot in lower case. One rule looks at the neighbours: the
capital sigma at the end of a word becomes `ς`, elsewhere `σ`.
-/

namespace TraceAudit.Text

/-- The image of one character under a table of runs and expansions. -/
def caseImage (runs : List CaseRun) (expansions : List (Nat × List Nat)) (c : Char) : List Char :=
  match expansions.lookup c.toNat with
  | some image => image.map Char.ofNat
  | none =>
    match runs.find? fun r => r.covers c.toNat with
    | some r => [Char.ofNat ((c.toNat : Int) + r.2.2.2).toNat]
    | none => [c]

/-- The lower case image of one character, its neighbours left aside. -/
def lowerChar (c : Char) : List Char :=
  if c.toNat < 0x80 then [c.toLower] else caseImage lowerRuns lowerExpansions c

/-- The upper case image of one character. -/
def upperChar (c : Char) : List Char :=
  if c.toNat < 0x80 then [c.toUpper] else caseImage upperRuns upperExpansions c

/-- Whether the nearest character that the search does not pass over is a letter with case. -/
def meetsCased (cs : List Char) : Bool :=
  match cs.dropWhile (inRanges caseIgnorableRanges) with
  | [] => false
  | c :: _ => inRanges casedRanges c

/-- The capital sigma. -/
def capitalSigma : Char := Char.ofNat 0x3A3

/-- The lower case image of `c` between the reversed text before it and the text after it. -/
def lowerBetween (before : List Char) (c : Char) (after : List Char) : List Char :=
  if c = capitalSigma then
    if meetsCased before && !meetsCased after then [Char.ofNat 0x3C2] else [Char.ofNat 0x3C3]
  else lowerChar c

/-- Lower case of the rest of a text whose reversed beginning is `before`. -/
def lowerAfter (before : List Char) : List Char → List Char
  | [] => []
  | c :: rest => lowerBetween before c rest ++ lowerAfter (c :: before) rest

/-- Lower case of a text. -/
def lowerChars (cs : List Char) : List Char :=
  lowerAfter [] cs

/-- Upper case of a text. -/
def upperChars (cs : List Char) : List Char :=
  cs.flatMap upperChar

/-- Lower case of a string. -/
def lower (s : String) : String :=
  String.ofList (lowerChars s.toList)

/-- Upper case of a string. -/
def upper (s : String) : String :=
  String.ofList (upperChars s.toList)

/-! ### On ASCII

Within ASCII both maps work character by character. -/

theorem lowerBetween_of_lt {c : Char} (h : c.toNat < 0x80) (before after : List Char) :
    lowerBetween before c after = [c.toLower] := by
  have hc : c ≠ capitalSigma := by
    rintro rfl
    exact absurd h (by decide)
  simp [lowerBetween, hc, lowerChar, h]

theorem lowerAfter_of_forall_lt {cs : List Char} (h : ∀ c ∈ cs, c.toNat < 0x80)
    (before : List Char) : lowerAfter before cs = cs.map Char.toLower := by
  induction cs generalizing before with
  | nil => rfl
  | cons c rest ih =>
    rw [lowerAfter, lowerBetween_of_lt (h c (by simp)), ih fun d hd => h d (by simp [hd])]
    rfl

/-- Lower case of an ASCII text maps its characters one by one. -/
theorem lowerChars_of_forall_lt {cs : List Char} (h : ∀ c ∈ cs, c.toNat < 0x80) :
    lowerChars cs = cs.map Char.toLower :=
  lowerAfter_of_forall_lt h []

/-- An ASCII text in lower case stays what it is. -/
theorem lowerChars_eq_self {cs : List Char} (h : ∀ c ∈ cs, c.toNat < 0x80 ∧ c.toLower = c) :
    lowerChars cs = cs := by
  rw [lowerChars_of_forall_lt fun c hc => (h c hc).1,
    List.map_congr_left fun c hc => (h c hc).2, List.map_id']

end TraceAudit.Text
