import RecordQuery.Json.Quoted

/-! Escaped texts read back. What the escape of one character reads as does not depend on what
follows it, so that every text between quotation marks is read up to its own closing mark. -/
namespace RecordQuery.Json.Quoted

theorem hexValueOfDigit {n : Nat} (small : n < 16) : hexValue? (hexDigit n) = some n := by
  revert n
  decide

theorem unitOfControl {n : Nat} (control : n < 0x20) :
    unit? '0' '0' (hexDigit (n / 16)) (hexDigit (n % 16)) = some n := by
  have zero : hexValue? '0' = some 0 := by decide
  have high := hexValueOfDigit (Nat.lt_of_le_of_lt (Nat.div_le_div_right (Nat.le_of_lt control))
    (by decide : 0x20 / 16 < 16))
  have low := hexValueOfDigit (Nat.mod_lt n (by decide : 0 < 16))
  simp only [unit?, zero, high, low, bind, Option.bind, Option.some.injEq]
  omega

def prepend (c : Char) (read : Option (List Char × List Char)) : Option (List Char × List Char) :=
  read.map fun result => (c :: result.1, result.2)

theorem readLetter {letter c : Char} (understood : letterEscape? letter = some c)
    (rest : List Char) : read? ('\\' :: letter :: rest) = prepend c (read? rest) := by
  have other : letter ≠ 'u' := by
    rintro rfl
    contradiction
  rw [read?]
  · simp only [understood]
    rfl
  · intro _ _ _ _ _ unit
    exact absurd unit other

theorem readControl {n : Nat} (control : n < 0x20) (rest : List Char) :
    read? ('\\' :: 'u' :: '0' :: '0' :: hexDigit (n / 16) :: hexDigit (n % 16) :: rest) =
      prepend (Char.ofNat n) (read? rest) := by
  have leading : isLeading n = false := by
    simp only [isLeading, Bool.and_eq_false_iff, decide_eq_false_iff_not]
    omega
  have trailing : isTrailing n = false := by
    simp only [isTrailing, Bool.and_eq_false_iff, decide_eq_false_iff_not]
    omega
  simp [read?, unitOfControl control, leading, trailing, prepend]

theorem readPlain {c : Char} (mark : c ≠ '"') (escape : c ≠ '\\') (visible : ¬ c.toNat < 0x20)
    (rest : List Char) : read? (c :: rest) = prepend c (read? rest) := by
  rw [read?]
  · rw [if_neg visible]
    rfl
  · exact mark
  · intro _ _ _ _ _ same
    exact absurd same escape
  · intro _ _ same
    exact absurd same escape

inductive Escape : Char → List Char → Prop where
  | letter {letter c} (understood : letterEscape? letter = some c) : Escape c ['\\', letter]
  | control {c} (low : c.toNat < 0x20) :
      Escape c ['\\', 'u', '0', '0', hexDigit (c.toNat / 16), hexDigit (c.toNat % 16)]
  | plain {c} (mark : c ≠ '"') (escape : c ≠ '\\') (visible : ¬ c.toNat < 0x20) : Escape c [c]

theorem escapeCharForm (c : Char) : Escape c (escapeChar c) := by
  unfold escapeChar
  -- One test for each of the characters that have a letter.
  iterate 7
    split
    · rename_i same
      subst same
      exact .letter rfl
  split
  · rename_i low
    exact .control low
  · exact .plain ‹_› ‹_› ‹_›

theorem readEscapeChar (c : Char) (rest : List Char) :
    read? (escapeChar c ++ rest) = prepend c (read? rest) := by
  have form := escapeCharForm c
  generalize escapeChar c = written at form ⊢
  cases form with
  | letter understood => exact readLetter understood rest
  | control low => simpa using readControl low rest
  | plain mark escape visible => exact readPlain mark escape visible rest

theorem readEscape (text rest : List Char) :
    read? (escape text ++ '"' :: rest) = some (text, rest) := by
  induction text with
  | nil => simp [escape, read?]
  | cons c text ih =>
    rw [escape, List.flatMap_cons, List.append_assoc, ← escape, readEscapeChar, ih]
    rfl

end RecordQuery.Json.Quoted
