import RecordQuery.Proofs.Text.Words
import RecordQuery.Query.Reading

/-! Counts as words. Digits are read from the left and capped at the largest limit, and the word
of a count spells that count and no other. -/
namespace RecordQuery.Count

theorem ofDigitCharsGe (digits : List Char) (sofar : Nat) :
    sofar ≤ Nat.ofDigitChars 10 digits sofar := by
  induction digits generalizing sofar with
  | nil => simp
  | cons c rest ih =>
    rw [Nat.ofDigitChars_cons]
    have later := ih (10 * sofar + (c.toNat - '0'.toNat))
    omega

theorem readLimitPast {digits : List Char} (all : ∀ c ∈ digits, c.isDigit) (rest : List Char)
    {sofar : Nat} (within : sofar ≤ maxLimit)
    (past : maxLimit < Nat.ofDigitChars 10 digits sofar) :
    readLimit? sofar (digits ++ rest) = some maxLimit := by
  induction digits generalizing sofar with
  | nil =>
    rw [Nat.ofDigitChars_nil] at past
    omega
  | cons c others ih =>
    obtain ⟨digit, later⟩ := List.forall_mem_cons.mp all
    rw [Nat.ofDigitChars_cons, Nat.mul_comm] at past
    simp only [List.cons_append, readLimit?, if_pos digit]
    split
    · rfl
    · rename_i below
      exact ih later (Nat.le_of_not_lt below) past

theorem readLimitWithin {digits : List Char} (all : ∀ c ∈ digits, c.isDigit) (rest : List Char)
    {sofar : Nat} (within : Nat.ofDigitChars 10 digits sofar ≤ maxLimit) :
    readLimit? sofar (digits ++ rest) = readLimit? (Nat.ofDigitChars 10 digits sofar) rest := by
  induction digits generalizing sofar with
  | nil => rw [List.nil_append, Nat.ofDigitChars_nil]
  | cons c others ih =>
    obtain ⟨digit, later⟩ := List.forall_mem_cons.mp all
    rw [Nat.ofDigitChars_cons, Nat.mul_comm] at within ⊢
    have least := ofDigitCharsGe others (sofar * 10 + (c.toNat - '0'.toNat))
    simp only [List.cons_append, readLimit?, if_pos digit]
    rw [if_neg (by omega), ih later within]

theorem readLimitDigits {digits : List Char} (all : ∀ c ∈ digits, c.isDigit) {sofar : Nat}
    (within : sofar ≤ maxLimit) :
    readLimit? sofar digits = some (min (Nat.ofDigitChars 10 digits sofar) maxLimit) := by
  rw [← List.append_nil digits]
  by_cases past : maxLimit < Nat.ofDigitChars 10 digits sofar
  · rw [readLimitPast all [] within past, List.append_nil, Nat.min_eq_right (Nat.le_of_lt past)]
  · have inside := Nat.le_of_not_lt past
    rw [readLimitWithin all [] inside, List.append_nil, Nat.min_eq_left inside, readLimit?]

theorem unsignedDigits {word : List Char} (all : ∀ c ∈ word, c.isDigit) :
    unsigned word = word := by
  unfold unsigned
  split
  · rename_i digits
    have plus := all '+' List.mem_cons_self
    contradiction
  · rfl

def IsKeyword (word : List Char) : Prop :=
  word = "all".toList ∨ word = "first".toList ∨ word = "last".toList

theorem ofWordOther {word : List Char} (other : ¬ IsKeyword word) :
    ofWord? word = (limit? word).map fun n => limit (UInt64.ofNat n) := by
  simp only [IsKeyword, not_or] at other
  simp only [ofWord?, other, if_false]

theorem keywordLetters {word : List Char} (keyword : IsKeyword word) :
    word.all fun c => !c.isDigit := by
  rcases keyword with rfl | rfl | rfl <;> rfl

def IsSign (sign : List Char) : Prop := sign = [] ∨ sign = ['+']

section

variable {sign digits : List Char}

theorem unsignedNumeral (plus : IsSign sign) (all : ∀ c ∈ digits, c.isDigit) :
    unsigned (sign ++ digits) = digits := by
  rcases plus with rfl | rfl
  · exact unsignedDigits all
  · rfl

theorem numeralOther (nonempty : digits ≠ []) (all : ∀ c ∈ digits, c.isDigit)
    (sign : List Char) : ¬ IsKeyword (sign ++ digits) := by
  obtain ⟨c, rest, rfl⟩ := List.exists_cons_of_ne_nil nonempty
  intro keyword
  have letter := List.all_eq_true.mp (keywordLetters keyword) c (by simp)
  rw [all c List.mem_cons_self] at letter
  exact Bool.false_ne_true letter

theorem ofNumeral (plus : IsSign sign) (nonempty : digits ≠ [])
    (all : ∀ c ∈ digits, c.isDigit) :
    ofWord? (sign ++ digits) =
      some (limit (UInt64.ofNat (min (Decimal.value digits) maxLimit))) := by
  rw [ofWordOther (numeralOther nonempty all sign), limit?, unsignedNumeral plus all,
    if_neg nonempty, readLimitDigits all (Nat.zero_le maxLimit), Option.map_some, Decimal.value]

end

theorem ofWordChars (count : Count) : ofWord? count.chars = some count := by
  cases count with
  | all => rfl
  | first => rfl
  | last => rfl
  | limit n =>
    have all : ∀ c ∈ Decimal.digits n.toNat, c.isDigit := fun _ => Decimal.isDigitOfMem
    have within : n.toNat ≤ maxLimit := Nat.le_of_lt_succ n.toNat_lt
    have read := ofNumeral (.inl rfl) (Decimal.digitsNeNil n.toNat) all
    rwa [List.nil_append, Decimal.valueDigits, Nat.min_eq_left within, UInt64.ofNat_toNat] at read

theorem digitNotBlank {c : Char} (digit : c.isDigit) : Text.isBlank c = false := by
  simp only [Char.isDigit, Bool.and_eq_true, decide_eq_true_eq] at digit
  have low : 48 ≤ c.toNat := digit.1
  have high : c.toNat ≤ 57 := digit.2
  simp only [Text.isBlank, Bool.or_eq_false_iff, Bool.and_eq_false_iff, decide_eq_false_iff_not,
    beq_eq_false_iff_ne]
  omega

theorem charsNoBlank (count : Count) : Text.NoBlank count.chars := by
  cases count with
  | limit n =>
    intro c member
    exact digitNotBlank (Decimal.isDigitOfMem (n := n.toNat) member)
  | all => decide
  | first => decide
  | last => decide

theorem wordNeNil {word : List Char} {count : Count} (read : ofWord? word = some count) :
    word ≠ [] := by
  rintro rfl
  contradiction

end RecordQuery.Count
