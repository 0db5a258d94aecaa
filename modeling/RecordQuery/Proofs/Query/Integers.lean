import RecordQuery.Proofs.Decimal.Literal
import RecordQuery.Proofs.Query.NormalForm

/-! Integers in fields compared with integers as text. Both sides are rounded to a nearest binary
number, the one from 64 bits and the other from decimal digits, and both by the same rule: up to
`2 ^ 53` nothing is lost, and beyond it two integers may become equal but never change their
order. -/
namespace RecordQuery

open Text (Blanks NoBlank Core)

inductive SpellsInteger : List Char → Int → Prop where
  | between {before sign digits after negative} (front : Blanks before) (back : Blanks after)
      (signed : Decimal.Sign sign negative) (nonempty : digits ≠ [])
      (all : ∀ c ∈ digits, c.isDigit) :
      SpellsInteger (before ++ (sign ++ digits ++ after))
        (if negative then -(Decimal.value digits : Int) else Decimal.value digits)

namespace Decimal

theorem Sign.noBlank {sign : List Char} {negative : Bool} (signed : Sign sign negative) :
    NoBlank sign := by
  cases signed with
  | none => exact nofun
  | plus | minus => decide

theorem literalDigits {sign digits : List Char} {negative : Bool} (signed : Sign sign negative)
    (nonempty : digits ≠ []) (all : ∀ c ∈ digits, c.isDigit) :
    literal? (sign ++ digits) = some (toBinary64 negative ⟨value digits, 0⟩) := by
  obtain ⟨c, rest, rfl⟩ := List.exists_cons_of_ne_nil nonempty
  rw [literalAt signed (all c List.mem_cons_self), magnitudeDigits nonempty all, Option.map_some,
    ofParts, List.append_nil, List.length_nil, Int.natCast_zero, Int.sub_zero]

end Decimal

theorem SpellsInteger.literal {text : List Char} {m : Int} (spells : SpellsInteger text m) :
    ∃ x, Decimal.literal? (Text.trim text) = some x ∧ Binary64.OfWhole m x := by
  cases spells with
  | @between before sign digits after negative front back signed nonempty all =>
    have solid : NoBlank (sign ++ digits) :=
      List.forall_mem_append.mpr ⟨signed.noBlank, fun c member => Count.digitNotBlank (all c member)⟩
    have word := Text.wordCore solid (List.append_ne_nil_of_right_ne_nil sign nonempty)
    have between : Core (before ++ (sign ++ digits ++ after)) (sign ++ digits) :=
      ⟨⟨before, after, front, back, rfl⟩, word.starts, word.ends⟩
    refine ⟨_, ?_, Decimal.toBinary64Whole negative (Decimal.value digits)⟩
    rw [between.trimmed, Decimal.literalDigits signed nonempty all]

namespace Operator

open Operand (Reads)

variable {n m : Int} {text : String} {x : Binary64}

theorem integerHolds {operator : Operator} (n : Int) (reads : Strictness.ReadsAs text.toList x) :
    operator.holds (some (.number (.integer n))) (.text text) ↔
      operator.Orders (Binary64.ofInt n).amount x.amount := by
  have mixed : Operand.Mixed (.number (.ofInt n)) (.text text) := fun _ _ same => nomatch same
  rw [holdsGiven (.integer n), relatesMixed mixed,
    ordersNumbersOf (.number (Binary64.ofIntNumber n)) (.text reads), ordersAmounts]

structure ComparesIntegers (n m : Int) (text : String) (x : Binary64) : Prop where
  exact : n.natAbs ≤ 2 ^ 53 → m.natAbs ≤ 2 ^ 53 → ∀ operator : Operator,
    operator.holds (some (.number (.integer n))) (.text text) ↔ operator.Orders n m
  above : greater.holds (some (.number (.integer n))) (.text text) → m < n
  below : less.holds (some (.number (.integer n))) (.text text) → n < m
  same : n = m → equal.holds (some (.number (.integer n))) (.text text)
  rounded : Binary64.Rounded n (.ofInt n) ∧ Binary64.Rounded m x

theorem ordersScaled {operator : Operator} :
    operator.Orders (n * Binary64.one) (m * Binary64.one) ↔ operator.Orders n m := by
  have positive : (0 : Int) < Binary64.one := Int.natCast_pos.mpr Binary64.onePositive
  cases operator with
  | equal => exact Int.mul_eq_mul_right_iff (Int.ne_of_gt positive)
  | greater | less => exact Int.mul_lt_mul_right positive

/- An integer and the text of an integer compare as the integers do as long as both are within
`2 ^ 53`, and beyond it no operator but equality holds that does not hold of the integers. -/
theorem comparesIntegers (n : Int) (spells : SpellsInteger text.toList m)
    (reads : Strictness.ReadsAs text.toList x) : ComparesIntegers n m text x := by
  have left := Binary64.ofIntWhole n
  have right : Binary64.OfWhole m x := by
    obtain ⟨y, literal, whole⟩ := spells.literal
    cases literal.symm.trans reads.1
    exact whole
  refine ⟨?_, ?_, ?_, ?_, left.rounded, right.rounded⟩
  · intro first second operator
    rw [integerHolds n reads, left.exact first, right.exact second, ordersScaled]
  · intro held
    have above := (integerHolds n reads).mp held
    exact Int.not_le.mp fun ordered => Int.not_lt.mpr (left.monotone right ordered) above
  · intro held
    have below := (integerHolds n reads).mp held
    exact Int.not_le.mp fun ordered => Int.not_lt.mpr (right.monotone left ordered) below
  · rintro rfl
    exact (integerHolds n reads).mpr (Int.le_antisymm (left.monotone right (Int.le_refl n))
      (right.monotone left (Int.le_refl n)))

theorem comparesLargestInteger :
    SpellsInteger "\t+0018446744073709551616 ".toList 18446744073709551616 ∧
      Strictness.ReadsAs "\t+0018446744073709551616 ".toList (.ofInt 18446744073709551616) ∧
      equal.holds (some (.number (.integer 18446744073709551615)))
        (.text "\t+0018446744073709551616 ") ∧
      ComparesIntegers 18446744073709551615 18446744073709551616 "\t+0018446744073709551616 "
        (.ofInt 18446744073709551616) := by
  have digits : ∀ c ∈ "0018446744073709551616".toList, c.isDigit :=
    List.all_eq_true.mp (by decide +kernel)
  have value : Decimal.value "0018446744073709551616".toList = 18446744073709551616 := by
    decide +kernel
  have spells : SpellsInteger (['\t'] ++ (['+'] ++ "0018446744073709551616".toList ++ [' ']))
      (Decimal.value "0018446744073709551616".toList) :=
    .between (by decide) (by decide) .plus (by decide) digits
  rw [value] at spells
  have reads : Strictness.ReadsAs "\t+0018446744073709551616 ".toList
      (.ofInt 18446744073709551616) := ⟨by decide +kernel, by decide +kernel⟩
  exact ⟨spells, reads, by decide +kernel, comparesIntegers _ spells reads⟩

end Operator
end RecordQuery
