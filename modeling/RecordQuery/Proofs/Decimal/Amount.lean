import RecordQuery.Proofs.Decimal.Rank
import RecordQuery.Proofs.Decimal.Rounding

/-! The exact amounts of binary numbers, and the binary numbers of whole ones. Numbers stand on the
line in the order of their amounts. A whole number is rounded to a nearest amount, so that the order
is kept, and up to `2 ^ 53` it is the amount itself. -/
namespace RecordQuery

namespace Binary64

def amount (x : Binary64) : Int :=
  if x.negative then -(units x.rank : Int) else units x.rank

theorem unitsZero : units 0 = 0 := rfl

theorem unitsZeroIff (rank : Nat) : units rank = 0 ↔ rank = 0 :=
  unitsIncrease.injective.eq_iff' unitsZero

section

variable {x y : Binary64}

theorem placeLess : x.place < y.place ↔ x.amount < y.amount := by
  have below : units x.rank < units y.rank ↔ x.rank < y.rank := unitsIncrease.lt_iff_lt
  have above : units y.rank < units x.rank ↔ y.rank < x.rank := unitsIncrease.lt_iff_lt
  have left := unitsZeroIff x.rank
  have right := unitsZeroIff y.rank
  unfold place amount
  split <;> split <;> omega

theorem placeSame : x.place = y.place ↔ x.amount = y.amount := by
  have below := placeLess (x := x) (y := y)
  have above := placeLess (x := y) (y := x)
  omega

end

def one : Nat := 1 <<< 1074

theorem oneTimes (n : Nat) : n <<< 1074 = n * one := by
  simp only [one, Nat.shiftLeft_eq, Nat.one_mul]

theorem onePositive : 0 < one := by decide +kernel

def whole (n : Nat) : Nat := units (nearestRank (n <<< 1074) 1)

theorem wholeZero : whole 0 = 0 := by decide +kernel

theorem wholeMonotone {n m : Nat} (ordered : n ≤ m) : whole n ≤ whole m := by
  have scaled : n <<< 1074 ≤ m <<< 1074 := by
    rw [oneTimes, oneTimes]
    exact Nat.mul_le_mul_right one ordered
  exact unitsIncrease.monotone (nearestRankMonotone Nat.one_pos scaled)

theorem unitsShifted {n : Nat} (positive : 0 < n) (most : n ≤ 2 * octave) (bits : Nat)
    (least : 52 ≤ bits) (few : bits ≤ 2045) : ∃ rank ≤ infinity, units rank = n <<< bits := by
  generalize shift : 52 - n.log2 = moved
  have nonzero := Nat.ne_of_gt positive
  have normal : octave ≤ n * 2 ^ moved := by
    calc octave
      _ ≤ 2 ^ (n.log2 + moved) := Nat.pow_le_pow_right (n := 2) (i := 52) (by decide) (by omega)
      _ = 2 ^ n.log2 * 2 ^ moved := Nat.pow_add ..
      _ ≤ n * 2 ^ moved := Nat.mul_le_mul_right _ (Nat.log2_self_le nonzero)
  have within : n * 2 ^ moved ≤ 2 * octave := by
    by_cases full : 53 ≤ n.log2
    · have still : moved = 0 := by omega
      rwa [still, Nat.pow_zero, Nat.mul_one]
    · have same : n.log2 + 1 + moved = 53 := by omega
      calc n * 2 ^ moved
        _ ≤ 2 ^ (n.log2 + 1) * 2 ^ moved :=
          Nat.mul_le_mul_right _ (Nat.le_of_lt Nat.lt_log2_self)
        _ = 2 * octave := by rw [← Nat.pow_add, same]; rfl
  refine ⟨(bits - moved) * octave + n * 2 ^ moved, ?_, ?_⟩
  · have counted : (bits - moved) * octave ≤ 2045 * octave := Nat.mul_le_mul_right _ (by omega)
    have limit : infinity = 2045 * octave + 2 * octave := rfl
    omega
  · have split : moved + (bits - moved) = bits := by omega
    rw [unitsScaled (.inr normal) within, Nat.mul_assoc, ← Nat.pow_add, split, Nat.shiftLeft_eq]

theorem wholeExact {n : Nat} (most : n ≤ 2 * octave) : whole n = n * one := by
  rcases Nat.eq_zero_or_pos n with rfl | positive
  · rw [wholeZero, Nat.zero_mul]
  · obtain ⟨rank, bounded, same⟩ := unitsShifted positive most 1074 (by decide) (by decide)
    have found := nearestRankUnits Nat.one_pos bounded
    rw [Nat.mul_one, same] at found
    rw [whole, found, same, oneTimes]

structure OfWhole (n : Int) (x : Binary64) : Prop where
  rank : x.rank = nearestRank (n.natAbs <<< 1074) 1
  negative : n < 0 → x.negative = true
  positive : 0 < n → x.negative = false

theorem ofIntWhole (n : Int) : OfWhole n (ofInt n) := by
  refine ⟨rfl, ?_, ?_⟩
  · exact fun below => decide_eq_true below
  · exact fun above => decide_eq_false (by omega)

theorem ofIntNumber (n : Int) : (ofInt n).isNaN = false := by
  simp only [isNaN, decide_eq_false_iff_not, Nat.not_lt]
  exact nearestRankLe ..

section

variable {n m : Int} {x y : Binary64}

theorem amountSides (x : Binary64) :
    x.negative = false ∧ x.amount = units x.rank ∨
      x.negative = true ∧ x.amount = -(units x.rank : Int) := by
  cases sign : x.negative with
  | false => exact .inl ⟨rfl, if_neg (Bool.eq_false_iff.mp sign)⟩
  | true => exact .inr ⟨rfl, if_pos sign⟩

theorem OfWhole.sides (source : OfWhole n x) :
    x.amount = units x.rank ∧ n = n.natAbs ∨
      x.amount = -(units x.rank : Int) ∧ n = -(n.natAbs : Int) := by
  rcases amountSides x with ⟨sign, same⟩ | ⟨sign, same⟩
  · have natural : ¬ n < 0 := fun below => by
      rw [source.negative below] at sign
      contradiction
    exact .inl ⟨same, by omega⟩
  · have negative : ¬ 0 < n := fun above => by
      rw [source.positive above] at sign
      contradiction
    exact .inr ⟨same, by omega⟩

theorem OfWhole.magnitude (source : OfWhole n x) : units x.rank = whole n.natAbs := by
  rw [source.rank, whole]

theorem OfWhole.monotone (first : OfWhole n x) (second : OfWhole m y) (ordered : n ≤ m) :
    x.amount ≤ y.amount := by
  have up : n.natAbs ≤ m.natAbs → whole n.natAbs ≤ whole m.natAbs := wholeMonotone
  have down : m.natAbs ≤ n.natAbs → whole m.natAbs ≤ whole n.natAbs := wholeMonotone
  have zero : n.natAbs = 0 → whole n.natAbs = 0 := fun none => by rw [none, wholeZero]
  have left := first.sides
  have right := second.sides
  rw [first.magnitude] at left
  rw [second.magnitude] at right
  omega

theorem OfWhole.exact (source : OfWhole n x) (within : n.natAbs ≤ 2 ^ 53) :
    x.amount = n * one := by
  have magnitude : (units x.rank : Int) = n.natAbs * one := by
    rw [source.magnitude, wholeExact within, Int.natCast_mul]
  rcases source.sides with ⟨amount, same⟩ | ⟨amount, same⟩
  · rw [amount, magnitude, ← same]
  · rw [amount, magnitude, ← Int.neg_mul, ← same]

/-- One amount, that of a rank, is chosen for a target before another: it is nearer, or both are
equally near and the last digit of its significand is zero. -/
def Closer (target amount : Int) (rank : Nat) (other : Int) : Prop :=
  (amount - target).natAbs < (other - target).natAbs ∨
    (amount - target).natAbs = (other - target).natAbs ∧ rank % 2 = 0

def Rounded (n : Int) (x : Binary64) : Prop :=
  ∀ y : Binary64, y.isNaN = false → y.amount ≠ x.amount →
    Closer (n * one) x.amount x.rank y.amount

theorem Closer.opposite {target amount other : Int} {rank : Nat}
    (closer : Closer target amount rank other) : Closer (-target) (-amount) rank (-other) := by
  have flip (a : Int) : (-a - -target).natAbs = (a - target).natAbs := by omega
  rw [Closer, flip, flip]
  exact closer

theorem OfWhole.closest (source : OfWhole n x) {rank : Nat} (bounded : rank ≤ infinity)
    (different : rank ≠ x.rank) :
    Closer (n.natAbs * one) (units x.rank) x.rank (units rank) := by
  rw [source.rank] at different
  have preferred := nearestRankPreferred Nat.one_pos bounded different
  rw [← source.rank, oneTimes] at preferred
  simpa only [Preferred, Closer, distance, Nat.mul_one, Int.natCast_mul] using preferred

theorem OfWhole.closestAcross (source : OfWhole n x) (rank : Nat) :
    Closer (n.natAbs * one) (units x.rank) x.rank (-(units rank : Int)) := by
  have natural : (0 : Int) ≤ n.natAbs * one := by
    rw [← Int.natCast_mul]
    exact Int.natCast_nonneg _
  unfold Closer
  by_cases zero : x.rank = 0
  · have none : units x.rank = 0 := (unitsZeroIff x.rank).mpr zero
    omega
  · have closest := source.closest (Nat.zero_le infinity) (Ne.symm zero)
    rw [Closer, unitsZero] at closest
    omega

theorem OfWhole.rounded (source : OfWhole n x) : Rounded n x := by
  intro y number different
  have bounded : y.rank ≤ infinity := by
    simpa [isNaN] using number
  have alike (apart : units y.rank ≠ units x.rank) :=
    source.closest bounded fun same => apart (congrArg units same)
  have across := source.closestAcross y.rank
  rcases source.sides with ⟨here, same⟩ | ⟨here, same⟩
  · rw [here] at different ⊢
    rw [same]
    rcases amountSides y with ⟨_, there⟩ | ⟨_, there⟩
    · rw [there] at different ⊢
      exact alike fun equal => different (congrArg Int.ofNat equal)
    · rw [there]
      exact across
  · rw [here] at different ⊢
    rw [same, Int.neg_mul]
    rcases amountSides y with ⟨_, there⟩ | ⟨_, there⟩
    · rw [there, ← Int.neg_neg (units y.rank)]
      exact across.opposite
    · rw [there] at different ⊢
      exact (alike fun equal => different (congrArg (fun units : Nat => -(units : Int)) equal)).opposite

end

end Binary64

namespace Decimal

open Binary64 (infinity nearestRank units OfWhole)

theorem nearestRankLong {n : Nat} (long : 309 < (digits n).length) :
    nearestRank (n <<< 1074) 1 = infinity := by
  have large : 10 ^ 309 ≤ n := by
    have some : 0 < 309 := by decide
    generalize 309 = places at long some ⊢
    refine Nat.le_of_not_lt fun small => ?_
    have short := (Nat.length_toDigits_le_iff (by decide) some).mpr small
    exact absurd long (Nat.not_lt.mpr short)
  have past : units infinity * 1 ≤ n <<< 1074 := by
    calc units infinity * 1
      _ ≤ 10 ^ 309 * Binary64.one := by decide +kernel
      _ ≤ n * Binary64.one := Nat.mul_le_mul_right _ large
      _ = n <<< 1074 := (Binary64.oneTimes n).symm
  have most : nearestRank (units infinity * 1) 1 = infinity :=
    Binary64.nearestRankUnits Nat.one_pos (Nat.le_refl _)
  have least := Binary64.nearestRankMonotone Nat.one_pos past
  rw [most] at least
  exact Nat.le_antisymm (Binary64.nearestRankLe ..) least

theorem rankNatural (n : Nat) : rank ⟨n, 0⟩ = nearestRank (n <<< 1074) 1 := by
  unfold rank top
  dsimp only
  rw [Int.add_zero]
  split
  · rename_i zero
    rw [zero]
    decide +kernel
  split
  · rename_i long
    exact (nearestRankLong (by omega)).symm
  split
  · omega
  · rw [if_pos (Int.le_refl 0), Int.toNat_zero, powerOfTen, Nat.pow_eq, Nat.pow_zero, Nat.mul_one]

theorem toBinary64Whole (negative : Bool) (n : Nat) :
    OfWhole (if negative then -(n : Int) else n) (toBinary64 negative ⟨n, 0⟩) := by
  cases negative with
  | false => exact ⟨rankNatural n, fun below => absurd below (by simp), fun _ => rfl⟩
  | true =>
    refine ⟨?_, fun _ => rfl, fun above => absurd above (by simp)⟩
    rw [if_pos rfl, Int.natAbs_neg, Int.natAbs_natCast]
    exact rankNatural n

end Decimal
end RecordQuery
