import Mathlib.Algebra.Group.Nat.Defs
import RecordQuery.Binary64

/-! Which rank is nearest to a magnitude. It depends on the magnitude alone and not on how that is
written as a quotient, and a rank is nearest to its own magnitude. -/
namespace RecordQuery.Binary64

theorem divideToEvenScale (dividend divisor : Nat) {scale : Nat} (positive : 0 < scale) :
    divideToEven (dividend * scale) (divisor * scale) = divideToEven dividend divisor := by
  have less : 2 * (dividend % divisor * scale) < divisor * scale ↔
      2 * (dividend % divisor) < divisor := by
    rw [← Nat.mul_assoc, Nat.mul_lt_mul_right positive]
  have same : 2 * (dividend % divisor * scale) = divisor * scale ↔
      2 * (dividend % divisor) = divisor := by
    rw [← Nat.mul_assoc, Nat.mul_left_inj (Nat.ne_of_gt positive)]
  simp only [divideToEven, Nat.mul_div_mul_right _ _ positive, Nat.mul_mod_mul_right, less, same]

theorem nearestRankScale (dividend divisor : Nat) {scale : Nat} (positive : 0 < scale) :
    nearestRank (dividend * scale) (divisor * scale) = nearestRank dividend divisor := by
  have shifted (count : Nat) : (divisor * scale) <<< count = (divisor <<< count) * scale := by
    rw [Nat.shiftLeft_eq, Nat.shiftLeft_eq, Nat.mul_right_comm]
  simp only [nearestRank, Nat.mul_div_mul_right _ _ positive, shifted,
    divideToEvenScale _ _ positive]

theorem nearestRankRatio {dividend divisor other otherDivisor : Nat} (positive : 0 < divisor)
    (otherPositive : 0 < otherDivisor) (same : dividend * otherDivisor = other * divisor) :
    nearestRank dividend divisor = nearestRank other otherDivisor := by
  rw [← nearestRankScale dividend divisor otherPositive, same, Nat.mul_comm divisor,
    nearestRankScale other otherDivisor positive]

theorem divideToEvenExact (quotient : Nat) {divisor : Nat} (positive : 0 < divisor) :
    divideToEven (quotient * divisor) divisor = quotient := by
  simp [divideToEven, Nat.mul_div_cancel _ positive, positive]

def doublings (rank : Nat) : Nat := rank / octave - 1

theorem significandBounds (rank : Nat) :
    doublings rank * octave ≤ rank ∧ rank - doublings rank * octave < 2 * octave ∧
      (doublings rank = 0 ∨ octave ≤ rank - doublings rank * octave) := by
  have whole := Nat.div_add_mod rank octave
  have part := Nat.mod_lt rank (show 0 < octave by decide)
  unfold doublings
  rw [Nat.mul_comm] at whole
  cases quotient : rank / octave with
  | zero =>
    rw [quotient] at whole
    omega
  | succ count =>
    rw [quotient, Nat.add_mul, Nat.one_mul] at whole
    rw [Nat.add_sub_cancel]
    omega

theorem log2Units (rank : Nat) : Nat.log2 (units rank) - 52 = doublings rank := by
  obtain ⟨least, below, above⟩ := significandBounds rank
  have shift : units rank =
      (rank - doublings rank * octave) * 2 ^ doublings rank := Nat.shiftLeft_eq ..
  rw [shift]
  generalize rank - doublings rank * octave = significand at below above
  rcases above with first | above
  · rw [first, Nat.pow_zero, Nat.mul_one]
    rcases Nat.eq_zero_or_pos significand with zero | positive
    · rw [zero]
      rfl
    · have small : significand.log2 < 53 :=
        (Nat.log2_lt (Nat.ne_of_gt positive)).mpr (Nat.lt_of_lt_of_eq below (by decide))
      omega
  · have positive : 0 < significand := Nat.lt_of_lt_of_le (by decide) above
    have nonzero : significand * 2 ^ doublings rank ≠ 0 :=
      Nat.ne_of_gt (Nat.mul_pos positive (Nat.two_pow_pos _))
    have least : 2 ^ (52 + doublings rank) ≤ significand * 2 ^ doublings rank := by
      rw [Nat.pow_add]
      exact Nat.mul_le_mul_right _ above
    have most : significand * 2 ^ doublings rank < 2 ^ (53 + doublings rank) := by
      rw [Nat.pow_add]
      exact Nat.mul_lt_mul_of_pos_right below (Nat.two_pow_pos _)
    have reached := (Nat.le_log2 nonzero).mpr least
    have bounded := (Nat.log2_lt nonzero).mpr most
    omega

theorem nearestRankUnits {rank divisor : Nat} (positive : 0 < divisor)
    (finite : rank ≤ infinity) : nearestRank (units rank * divisor) divisor = rank := by
  obtain ⟨least, _, _⟩ := significandBounds rank
  have exactly : divideToEven (units rank * divisor) (divisor <<< doublings rank) =
      rank - doublings rank * octave := by
    have shift : units rank * divisor =
        (rank - doublings rank * octave) * (divisor <<< doublings rank) := by
      rw [units, Nat.shiftLeft_eq, Nat.shiftLeft_eq, ← doublings, Nat.mul_assoc,
        Nat.mul_comm divisor]
    have widened : 0 < divisor <<< doublings rank := by
      rw [Nat.shiftLeft_eq]
      exact Nat.mul_pos positive (Nat.two_pow_pos _)
    rw [shift, divideToEvenExact _ widened]
  simp only [nearestRank, Nat.mul_div_cancel _ positive, log2Units, exactly,
    Nat.add_sub_of_le least]
  exact Nat.min_eq_left finite

theorem unitsBounds {rank : Nat} (positive : 0 < rank) (finite : rank < infinity) :
    0 < units rank ∧ units rank < 2 ^ 2098 := by
  obtain ⟨least, below, above⟩ := significandBounds rank
  have shift : units rank =
      (rank - doublings rank * octave) * 2 ^ doublings rank := Nat.shiftLeft_eq ..
  have few : doublings rank ≤ 2045 := by
    have bound : rank / octave < 2047 := Nat.div_lt_of_lt_mul finite
    unfold doublings
    omega
  rw [shift]
  constructor
  · refine Nat.mul_pos ?_ (Nat.two_pow_pos _)
    rcases above with first | above
    · rw [first]
      omega
    · exact Nat.lt_of_lt_of_le (by decide) above
  · have widest : 53 + doublings rank ≤ 2098 := by omega
    generalize 2098 = most at widest
    calc (rank - doublings rank * octave) * 2 ^ doublings rank
      _ < 2 * octave * 2 ^ doublings rank := Nat.mul_lt_mul_of_pos_right below (Nat.two_pow_pos _)
      _ = 2 ^ (53 + doublings rank) := by rw [Nat.pow_add]; rfl
      _ ≤ 2 ^ most := Nat.pow_le_pow_right (by decide) widest

end RecordQuery.Binary64
