/-! Binary floating-point numbers of 64 bits, as exact data. A number is a sign and a rank: the
place of its magnitude among the magnitudes, which is also the lower 63 bits of its encoding.
Rank 0 is zero, the finite magnitudes follow in increasing order, then comes infinity, and every
larger rank is not a number. One unit is the smallest positive magnitude, `2 ^ -1074`; every
finite magnitude is a whole number of units, so that rounding and comparing need no fractions. -/
namespace RecordQuery

structure Binary64 where
  negative : Bool
  rank : Nat
  rank_lt : rank < 0x8000000000000000
  deriving DecidableEq, Repr

namespace Binary64

def infinity : Nat := 0x7FF0000000000000

def octave : Nat := 0x10000000000000

def isFinite (x : Binary64) : Bool := x.rank < infinity

def isNaN (x : Binary64) : Bool := infinity < x.rank

def ofBits (bits : UInt64) : Binary64 :=
  ⟨0x8000000000000000 ≤ bits.toNat, bits.toNat % 0x8000000000000000, Nat.mod_lt _ (by decide)⟩

def toBits (x : Binary64) : UInt64 :=
  UInt64.ofNat ((if x.negative then 0x8000000000000000 else 0) + x.rank)

def place (x : Binary64) : Int :=
  if x.negative then -(x.rank : Int) else x.rank

def compare? (x y : Binary64) : Option Ordering :=
  if x.isNaN || y.isNaN then none
  else if x.place < y.place then some .lt
  else if y.place < x.place then some .gt
  else some .eq

/-- The units in the magnitude of a rank. Up to rank `2 ^ 53` the ranks count units; from there
on the distance of neighbours doubles with every octave. Infinity stands for the magnitude
that would follow the largest finite one. -/
def units (rank : Nat) : Nat :=
  let doublings := rank / octave - 1
  (rank - doublings * octave) <<< doublings

def divideToEven (dividend divisor : Nat) : Nat :=
  let quotient := dividend / divisor
  let rest := dividend % divisor
  if 2 * rest < divisor ∨ (2 * rest = divisor ∧ quotient % 2 = 0) then quotient else quotient + 1

/-- The rank nearest to a magnitude of `dividend / divisor` units, the even one of two equally
near ranks. The magnitude is divided by the distance of the ranks around it; a quotient that is
rounded up to `2 ^ 53` is the first rank of the next distance, as it should be. -/
def nearestRank (dividend divisor : Nat) : Nat :=
  let doublings := Nat.log2 (dividend / divisor) - 52
  min (doublings * octave + divideToEven dividend (divisor <<< doublings)) infinity

theorem nearestRankLe (dividend divisor : Nat) : nearestRank dividend divisor ≤ infinity :=
  Nat.min_le_right ..

theorem rankBound {rank : Nat} (bounded : rank ≤ infinity) :
    rank < 0x8000000000000000 :=
  Nat.lt_of_le_of_lt bounded (by decide)

def ofRank (negative : Bool) (rank : Nat) (bounded : rank ≤ infinity) : Binary64 :=
  ⟨negative, rank, rankBound bounded⟩

def ofInt (n : Int) : Binary64 :=
  ofRank (n < 0) (nearestRank (n.natAbs <<< 1074) 1) (nearestRankLe ..)

def nan (negative : Bool) : Binary64 :=
  ⟨negative, infinity + 0x8000000000000, by decide⟩

theorem ofBitsToBits (x : Binary64) : ofBits x.toBits = x := by
  obtain ⟨negative, rank, bound⟩ := x
  cases negative <;> simp [ofBits, toBits] <;> omega

theorem toBitsOfBits (bits : UInt64) : (ofBits bits).toBits = bits := by
  have bound := bits.toNat_lt
  simp only [ofBits, toBits, decide_eq_true_eq]
  rw [← UInt64.toNat_inj, UInt64.toNat_ofNat']
  split <;> omega

end Binary64
end RecordQuery
