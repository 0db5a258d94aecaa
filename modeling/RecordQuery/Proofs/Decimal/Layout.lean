import RecordQuery.Decimal.Layout
import RecordQuery.Decimal.Literal
import RecordQuery.Proofs.Decimal.Rank

/-! What a layout writes. The digits of a number start with no zero unless it is zero; without
the zeros at their end they are laid out in one of a few forms, and the parts of each form make a
decimal number of the same rank. -/
namespace RecordQuery.Decimal

open Binary64 (infinity)

theorem digitsHead {n : Nat} (positive : 0 < n) : ∃ c rest, digits n = c :: rest ∧ c ≠ '0' := by
  induction n using Nat.strongRecOn with
  | _ n ih =>
    by_cases small : n < 10
    · refine ⟨n.digitChar, [], Nat.toDigits_of_lt_base small, ?_⟩
      rw [ne_eq, Nat.digitChar_eq_zero]
      omega
    · obtain ⟨c, rest, same, nonzero⟩ := ih (n / 10) (by omega) (by omega)
      refine ⟨c, rest ++ [(n % 10).digitChar], ?_, nonzero⟩
      rw [digits, Nat.toDigits_of_base_le (by decide) (Nat.le_of_not_lt small), ← digits, same,
        List.cons_append]

theorem significantDigitsZeros (text : List Char) :
    ∃ count, text = significantDigits text ++ List.replicate count '0' := by
  refine ⟨(text.reverse.takeWhile (· == '0')).length, ?_⟩
  have zeros : text.reverse.takeWhile (· == '0') =
      List.replicate (text.reverse.takeWhile (· == '0')).length '0' := by
    apply List.eq_replicate_of_mem
    intro c member
    simpa using List.all_eq_true.mp List.all_takeWhile c member
  rw [← List.reverse_replicate, ← zeros, significantDigits, ← List.reverse_append,
    List.takeWhile_append_dropWhile, List.reverse_reverse]

structure Significant (text : List Char) : Prop where
  digits : ∀ c ∈ text, c.isDigit
  head : ∃ c rest, text = c :: rest ∧ c ≠ '0'

theorem significantParts {n : Nat} (positive : 0 < n) :
    Significant (significantDigits (digits n)) ∧
      ∃ count, n = value (significantDigits (digits n)) * 10 ^ count ∧
        (digits n).length = (significantDigits (digits n)).length + count := by
  obtain ⟨count, parts⟩ := significantDigitsZeros (digits n)
  obtain ⟨c, rest, first, nonzero⟩ := digitsHead positive
  generalize significantDigits (digits n) = front at parts
  refine ⟨⟨?_, ?_⟩, count, ?_, ?_⟩
  · intro d member
    exact isDigitOfMem (n := n) (parts ▸ List.mem_append_left _ member)
  · cases front with
    | cons d others =>
      rw [parts] at first
      obtain ⟨rfl, _⟩ := List.cons.inj first
      exact ⟨d, others, rfl, nonzero⟩
    | nil =>
      rw [parts, List.nil_append] at first
      have zero : c = '0' := List.eq_of_mem_replicate (first ▸ List.mem_cons_self)
      exact absurd zero nonzero
  · have whole := valueDigits n
    rw [parts, value, Nat.ofDigitChars_append, Nat.ofDigitChars_replicate_zero, ← value,
      Nat.mul_comm] at whole
    exact whole.symm
  · rw [parts, List.length_append, List.length_replicate]

def exponentText (power : Int) : List Char :=
  'e' :: (if power < 0 then '-' else '+') :: digits power.natAbs

def Whole (text : List Char) : Prop := text = ['0'] ∨ Significant text

inductive Form (layout : Layout) : List Char → Decimal → Prop where
  | whole {whole} (leading : Whole whole) :
      Form layout (whole ++ layout.wholeEnd) (ofParts whole [] 0)
  | point {whole fraction} (leading : Whole whole) (digits : ∀ c ∈ fraction, c.isDigit)
      (nonempty : fraction ≠ []) : Form layout (whole ++ '.' :: fraction) (ofParts whole fraction 0)
  | exponent {digit power} (leading : Whole [digit]) :
      Form layout (digit :: exponentText power) (ofParts [digit] [] power)
  | pointExponent {digit others power} (leading : Whole [digit])
      (digits : ∀ c ∈ others, c.isDigit) (nonempty : others ≠ []) :
      Form layout (digit :: '.' :: (others ++ exponentText power)) (ofParts [digit] others power)

theorem valueZeros (count : Nat) (text : List Char) :
    value (List.replicate count '0' ++ text) = value text := by
  rw [value, Nat.ofDigitChars_append, Nat.ofDigitChars_replicate_zero, Nat.mul_zero, value]

theorem valueShift (text : List Char) (count : Nat) :
    value (text ++ List.replicate count '0') = value text * 10 ^ count := by
  rw [value, Nat.ofDigitChars_append, Nat.ofDigitChars_replicate_zero, ← value, Nat.mul_comm]

theorem Significant.append {text more : List Char} (significant : Significant text)
    (digits : ∀ c ∈ more, c.isDigit) : Significant (text ++ more) := by
  obtain ⟨all, c, rest, rfl, nonzero⟩ := significant
  refine ⟨?_, c, rest ++ more, rfl, nonzero⟩
  intro d member
  exact (List.mem_append.mp member).elim (all d) (digits d)

theorem Significant.take {text : List Char} (significant : Significant text) {count : Nat}
    (positive : 0 < count) : Significant (text.take count) := by
  obtain ⟨all, c, rest, rfl, nonzero⟩ := significant
  obtain ⟨more, rfl⟩ := Nat.exists_eq_succ_of_ne_zero (Nat.ne_of_gt positive)
  exact ⟨fun d member => all d (List.mem_of_mem_take member), c, rest.take more, rfl, nonzero⟩

theorem zerosDigits {count : Nat} : ∀ c ∈ List.replicate count '0', c.isDigit := by
  intro c member
  rw [List.eq_of_mem_replicate member]
  rfl

theorem Significant.nonempty {text : List Char} (significant : Significant text) : text ≠ [] := by
  obtain ⟨_, c, rest, rfl, _⟩ := significant
  exact List.cons_ne_nil c rest

theorem withPointForm (layout : Layout) {text : List Char} (significant : Significant text)
    (power : Int) :
    ∃ d, Form layout (layout.withPoint text power) d ∧
      d.rank = rank ⟨value text, power + 1 - text.length⟩ := by
  unfold Layout.withPoint
  split
  · rename_i negative
    have fraction : ∀ c ∈ List.replicate (-power - 1).toNat '0' ++ text, c.isDigit := by
      intro c member
      exact (List.mem_append.mp member).elim (zerosDigits c) (significant.digits c)
    refine ⟨_, .point (.inl rfl) fraction ?_, ?_⟩
    · exact List.append_ne_nil_of_right_ne_nil _ significant.nonempty
    · have digits : value (['0'] ++ (List.replicate (-power - 1).toNat '0' ++ text)) = value text :=
        (valueZeros 1 _).trans (valueZeros _ text)
      have places : 0 - ((List.replicate (-power - 1).toNat '0' ++ text).length : Int) =
          power + 1 - text.length := by
        rw [List.length_append, List.length_replicate]
        omega
      rw [ofParts, digits, places]
  rename_i natural
  dsimp only
  split
  · rename_i short
    refine ⟨_, .whole (.inr (significant.append zerosDigits)), ?_⟩
    have places : 0 - (([] : List Char).length : Int) + ↑(power.toNat + 1 - text.length) =
        power + 1 - text.length := by
      rw [List.length_nil]
      omega
    rw [ofParts, List.append_nil, valueShift, rankShift, places]
  · rename_i long
    refine ⟨_, .point (.inr (significant.take (Nat.succ_pos _))) ?_ ?_, ?_⟩
    · exact fun c member => significant.digits c (List.mem_of_mem_drop member)
    · rw [ne_eq, List.drop_eq_nil_iff]
      exact long
    · have places : 0 - ((text.drop (power.toNat + 1)).length : Int) =
          power + 1 - text.length := by
        rw [List.length_drop]
        omega
      rw [ofParts, List.take_append_drop, places]

theorem withExponentForm (layout : Layout) {text : List Char} (significant : Significant text)
    (power : Int) :
    ∃ d, Form layout (withExponent text power) d ∧
      d.rank = rank ⟨value text, power + 1 - text.length⟩ := by
  obtain ⟨digit, others, rfl, nonzero⟩ := significant.head
  have leading : Whole [digit] :=
    .inr ⟨fun c member => significant.digits c (List.mem_cons.mpr (.inl (by simpa using member))),
      digit, [], rfl, nonzero⟩
  cases others with
  | nil =>
    refine ⟨_, .exponent leading, ?_⟩
    have places : power - (([] : List Char).length : Int) = power + 1 - [digit].length := by simp
    rw [ofParts, places, List.append_nil]
  | cons next rest =>
    refine ⟨_, .pointExponent leading ?_ (List.cons_ne_nil next rest), ?_⟩
    · exact fun c member => significant.digits c (List.mem_cons_of_mem digit member)
    · have places : power - ((next :: rest).length : Int) =
          power + 1 - (digit :: next :: rest).length := by
        simp only [List.length_cons]
        omega
      rw [ofParts, places]
      rfl

theorem magnitudeForm (layout : Layout) {r : Nat} (finite : r < infinity) :
    ∃ d, Form layout (layout.magnitude r) d ∧ d.rank = r := by
  unfold Layout.magnitude
  split
  · rename_i zero
    exact ⟨_, .whole (.inl rfl), zero ▸ rankZero _⟩
  rename_i nonzero
  have same := shortestRank layout.tie finite
  generalize shortest layout.tie r = d at same
  obtain ⟨n, exponent⟩ := d
  have positive : 0 < n := by
    refine Nat.pos_of_ne_zero fun zero => ?_
    rw [zero, rankZero] at same
    exact nonzero same.symm
  obtain ⟨significant, count, parts, length⟩ := significantParts positive
  have power : top ⟨n, exponent⟩ - 1 + 1 - (significantDigits (digits n)).length =
      exponent + count := by
    simp only [top, length]
    omega
  have back : rank ⟨value (significantDigits (digits n)), exponent + count⟩ = r := by
    rw [← rankShift, ← parts, same]
  dsimp only
  split
  · obtain ⟨d, form, laidOut⟩ := withPointForm layout significant (top ⟨n, exponent⟩ - 1)
    rw [power] at laidOut
    exact ⟨d, form, laidOut.trans back⟩
  · obtain ⟨d, form, laidOut⟩ := withExponentForm layout significant (top ⟨n, exponent⟩ - 1)
    rw [power] at laidOut
    exact ⟨d, form, laidOut.trans back⟩

end RecordQuery.Decimal
