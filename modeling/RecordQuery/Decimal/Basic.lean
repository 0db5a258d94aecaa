import RecordQuery.Binary64

/-! Decimal numbers, their digits, and the binary number nearest to one. A decimal number is a
whole significand and a power of ten, so that every text of digits, with or without a point and
an exponent, has one exactly. -/
namespace RecordQuery

structure Decimal where
  significand : Nat
  exponent : Int
  deriving DecidableEq, Repr

namespace Decimal

def digits (n : Nat) : List Char :=
  Nat.toDigits 10 n

def value (digits : List Char) : Nat :=
  Nat.ofDigitChars 10 digits 0

theorem valueDigits (n : Nat) : value (digits n) = n :=
  Nat.ofDigitChars_ten_toDigits

theorem isDigitOfMem {n : Nat} {c : Char} (member : c ∈ digits n) : c.isDigit :=
  Nat.isDigit_of_mem_toDigits (by decide) (by decide) member

theorem digitsNeNil (n : Nat) : digits n ≠ [] :=
  Nat.toDigits_ne_nil

def powerOfTen (n : Nat) : Nat := Nat.pow 10 n

def top (d : Decimal) : Int :=
  (digits d.significand).length + d.exponent

/-- The rank nearest to the magnitude. From `10 ^ 309` on a magnitude is infinite and below
`10 ^ -324` it is nearer to zero than to the smallest unit; the powers of ten of all others are
moderate and the quotient of whole numbers is rounded. -/
def rank (d : Decimal) : Nat :=
  if d.significand = 0 then 0
  else if 309 < d.top then Binary64.infinity
  else if d.top ≤ -324 then 0
  else if 0 ≤ d.exponent then
    Binary64.nearestRank ((d.significand * powerOfTen d.exponent.toNat) <<< 1074) 1
  else
    Binary64.nearestRank (d.significand <<< 1074) (powerOfTen (-d.exponent).toNat)

theorem rankLe (d : Decimal) : d.rank ≤ Binary64.infinity := by
  unfold rank
  split
  · exact Nat.zero_le _
  split
  · exact Nat.le_refl _
  split
  · exact Nat.zero_le _
  split
  · exact Binary64.nearestRankLe ..
  · exact Binary64.nearestRankLe ..

def toBinary64 (negative : Bool) (d : Decimal) : Binary64 :=
  Binary64.ofRank negative d.rank d.rankLe

end Decimal
end RecordQuery
