import RecordQuery.Decimal.Shortest
import RecordQuery.Proofs.Decimal.Nearest

/-! Decimal numbers that are read back. The rank nearest to a decimal number is that of its
magnitude, so that zeros moved between the significand and the exponent do not change it; the
shortest decimal number of a rank has that rank. -/
namespace RecordQuery.Decimal

open Binary64 (infinity units)

theorem digitsShift {n : Nat} (positive : 0 < n) (count : Nat) :
    digits (n * 10 ^ count) = digits n ++ List.replicate count '0' := by
  induction count with
  | zero => rw [Nat.pow_zero, Nat.mul_one, List.replicate_zero, List.append_nil]
  | succ count ih =>
    have left : 0 < n * 10 ^ count := Nat.mul_pos positive (Nat.pow_pos (by decide))
    have last := Nat.toDigits_append_toDigits (show 1 < 10 by decide) left (show 0 < 10 by decide)
    rw [Nat.toDigits_zero, Nat.add_zero] at last
    rw [Nat.pow_succ, ← Nat.mul_assoc, Nat.mul_comm _ 10, digits, ← last, ← digits, ih,
      List.append_assoc, List.replicate_succ']

theorem topShift {n : Nat} (positive : 0 < n) (count : Nat) (exponent : Int) :
    top ⟨n * 10 ^ count, exponent⟩ = top ⟨n, exponent + count⟩ := by
  simp only [top, digitsShift positive, List.length_append, List.length_replicate]
  omega

theorem rankZero (exponent : Int) : rank ⟨0, exponent⟩ = 0 := if_pos rfl

theorem rankOutside {d : Decimal} (outside : d.significand = 0 ∨ 309 < d.top ∨ d.top ≤ -324) :
    d.rank = if d.significand = 0 then 0 else if 309 < d.top then infinity else 0 := by
  unfold rank
  split
  · rfl
  split
  · rfl
  rw [if_pos (by omega)]

theorem rankWithin {d : Decimal} (inside : ¬ (d.significand = 0 ∨ 309 < d.top ∨ d.top ≤ -324))
    {places power : Nat} (whole : d.exponent + places = power) :
    d.rank = Binary64.nearestRank ((d.significand * 10 ^ power) <<< 1074) (10 ^ places) := by
  simp only [not_or] at inside
  obtain ⟨nonzero, high, low⟩ := inside
  have positive (count : Nat) : 0 < 10 ^ count := Nat.pow_pos (by decide)
  unfold rank
  rw [if_neg nonzero, if_neg high, if_neg low]
  -- As a literal the power of two would be computed.
  generalize 1074 = bits
  simp only [Nat.shiftLeft_eq, powerOfTen, Nat.pow_eq]
  generalize 2 ^ bits = unit
  split
  · rename_i natural
    obtain ⟨count, same⟩ := Int.eq_ofNat_of_zero_le natural
    have sum : power = count + places := by omega
    apply Binary64.nearestRankRatio Nat.one_pos (positive places)
    rw [same, Int.toNat_natCast, sum, Nat.pow_add]
    ac_rfl
  · rename_i negative
    obtain ⟨count, same⟩ := Int.eq_ofNat_of_zero_le (show 0 ≤ -d.exponent by omega)
    have sum : places = power + count := by omega
    apply Binary64.nearestRankRatio (positive _) (positive places)
    rw [same, Int.toNat_natCast, sum, Nat.pow_add]
    ac_rfl

theorem rankShift (n count : Nat) (exponent : Int) :
    rank ⟨n * 10 ^ count, exponent⟩ = rank ⟨n, exponent + count⟩ := by
  rcases Nat.eq_zero_or_pos n with zero | positive
  · rw [zero, Nat.zero_mul, rankZero, rankZero]
  have tops := topShift positive count exponent
  have nonzero : n * 10 ^ count ≠ 0 :=
    Nat.ne_of_gt (Nat.mul_pos positive (Nat.pow_pos (by decide)))
  by_cases outside : 309 < top ⟨n, exponent + count⟩ ∨ top ⟨n, exponent + count⟩ ≤ -324
  · rw [rankOutside (.inr (tops ▸ outside)), rankOutside (.inr outside), tops, if_neg nonzero,
      if_neg (Nat.ne_of_gt positive)]
  · obtain ⟨power, whole⟩ :=
      Int.eq_ofNat_of_zero_le (show 0 ≤ exponent + (-exponent).toNat by omega)
    have inside : ¬ (n * 10 ^ count = 0 ∨ 309 < top ⟨n * 10 ^ count, exponent⟩ ∨
        top ⟨n * 10 ^ count, exponent⟩ ≤ -324) := by
      rw [tops]
      omega
    have insideToo : ¬ (n = 0 ∨ 309 < top ⟨n, exponent + count⟩ ∨
        top ⟨n, exponent + count⟩ ≤ -324) := by
      omega
    have shifted : exponent + count + (-exponent).toNat = ((count + power : Nat) : Int) := by
      omega
    have numerators : n * 10 ^ count * 10 ^ power = n * 10 ^ (count + power) := by
      rw [Nat.pow_add, Nat.mul_assoc]
    rw [rankWithin inside whole, rankWithin insideToo shifted]
    simp only [numerators]

theorem fivesPositive (count : Nat) : 0 < Nat.pow 5 count := Nat.pow_pos (by decide)

theorem lengthBounds {n lower upper : Nat} (least : 10 ^ (lower + 1) ≤ n)
    (most : n < 10 ^ (upper + 1)) :
    lower + 1 < (digits n).length ∧ (digits n).length ≤ upper + 1 := by
  constructor
  · refine Nat.lt_of_not_le fun short => ?_
    have small := (Nat.length_toDigits_le_iff (by decide) (Nat.succ_pos lower)).mp short
    omega
  · exact (Nat.length_toDigits_le_iff (by decide) (Nat.succ_pos upper)).mpr most

theorem exactInside {r : Nat} (positive : 0 < r) (finite : r < infinity) :
    ¬ ((exact r).significand = 0 ∨ 309 < (exact r).top ∨ (exact r).top ≤ -324) := by
  obtain ⟨some, few⟩ := Binary64.unitsBounds positive finite
  unfold exact top
  generalize counted : 1074 = count
  have fives := fivesPositive count
  have enough : 10 ^ (749 + 1) ≤ Nat.pow 5 count := by
    subst counted
    decide +kernel
  have notMore : 2 ^ 2098 * Nat.pow 5 count ≤ 10 ^ (1382 + 1) := by
    subst counted
    decide +kernel
  have least : 10 ^ (749 + 1) ≤ units r * Nat.pow 5 count :=
    Nat.le_trans enough (Nat.le_mul_of_pos_left _ some)
  have most : units r * Nat.pow 5 count < 10 ^ (1382 + 1) :=
    Nat.lt_of_lt_of_le (Nat.mul_lt_mul_of_pos_right few fives) notMore
  obtain ⟨long, short⟩ := lengthBounds least most
  have nonzero : 0 < units r * Nat.pow 5 count := Nat.mul_pos some fives
  dsimp only
  omega

theorem exactQuotient {r : Nat} (finite : r < infinity) (count : Nat) :
    Binary64.nearestRank ((units r * Nat.pow 5 count * 10 ^ 0) <<< count) (10 ^ count) = r := by
  have product : (units r * Nat.pow 5 count * 10 ^ 0) <<< count = units r * 10 ^ count := by
    rw [Nat.shiftLeft_eq, Nat.pow_zero, Nat.mul_one, Nat.mul_assoc, Nat.pow_eq, ← Nat.mul_pow]
  rw [product]
  exact Binary64.nearestRankUnits (Nat.pow_pos (by decide)) (Nat.le_of_lt finite)

theorem exactRank {r : Nat} (finite : r < infinity) : (exact r).rank = r := by
  rcases Nat.eq_zero_or_pos r with rfl | positive
  · decide +kernel
  · have whole : (exact r).exponent + (1074 : Nat) = (0 : Nat) :=
      show (-1074 : Int) + 1074 = 0 by decide
    rw [rankWithin (exactInside positive finite) whole]
    unfold exact
    generalize 1074 = count
    exact exactQuotient finite count

theorem shortestRank (tie : Tie) {r : Nat} (finite : r < infinity) :
    (shortest tie r).rank = r := by
  unfold shortest
  dsimp only
  cases found : digitCounts.findSome? fun count =>
      neighbour? tie r (exact r).significand ((digits (exact r).significand).length - count) with
  | none => exact exactRank finite
  | some d =>
    obtain ⟨count, _, same⟩ := List.exists_of_findSome?_eq_some found
    exact neighbourRank same

end RecordQuery.Decimal
