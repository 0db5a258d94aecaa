import RecordQuery.Proofs.Query.Count
import RecordQuery.Proofs.Query.Selection

/-! Numerals of any size as limits. A number above the largest limit becomes that limit, which keeps
no fewer records than the number would. -/
namespace RecordQuery

namespace Count

theorem cappedToNat (n : Nat) : (UInt64.ofNat (min n maxLimit)).toNat = min n maxLimit :=
  UInt64.toNat_ofNat_of_lt' (Nat.lt_of_le_of_lt (Nat.min_le_right n maxLimit) (by decide))

end Count

namespace Query

variable {records : List Record}

structure SelectsFirst (number : Nat) (query : Query) (records : List Record) : Prop where
  nothing : query.select? records = none ↔ ∃ condition, query.condition = some condition ∧
    ∀ record ∈ records, condition.isMetBy record = false
  found : ∀ selection, query.select? records = some selection →
    selection = (query.working records).take (min number (query.working records).length)

theorem selectsFirst {number : Nat} {n : UInt64} (capped : n.toNat = min number Count.maxLimit)
    (fits : records.length ≤ Count.maxLimit) (condition : Option Condition) :
    SelectsFirst number ⟨.limit n, condition⟩ records := by
  constructor
  case nothing =>
    rw [selectNone]
    cases condition with
    | none => simp
    | some condition => simp [workingRestricted, Condition.meeting]
  case found =>
    intro selection selected
    have taken := selectTaken selected
    have few : (working ⟨.limit n, condition⟩ records).length ≤ records.length :=
      List.length_filter_le ..
    cases Option.some.inj taken
    rw [List.take_eq_take_iff]
    omega

/- A numeral of any length is read as the limit nearest to its number, which selects what the number
itself would select from every list whose length is within the limits. -/
theorem numeralSelects {sign digits : List Char} (plus : Count.IsSign sign)
    (nonempty : digits ≠ []) (all : ∀ c ∈ digits, c.isDigit) :
    ∃ n : UInt64, Count.ofWord? (sign ++ digits) = some (.limit n) ∧
      n.toNat = min (Decimal.value digits) Count.maxLimit ∧
      ∀ records : List Record, records.length ≤ Count.maxLimit →
        ∀ condition : Option Condition,
          SelectsFirst (Decimal.value digits) ⟨.limit n, condition⟩ records := by
  have capped := Count.cappedToNat (Decimal.value digits)
  exact ⟨_, Count.ofNumeral plus nonempty all, capped, fun _ => selectsFirst capped⟩

theorem numeralSelectsPastLimits :
    let digits := "0018446744073709551616".toList
    let records : List Record := [⟨[("number", .number (.integer 7))]⟩, ⟨[]⟩]
    Count.maxLimit < Decimal.value digits ∧
      ∃ n : UInt64, Count.ofWord? ('+' :: digits) = some (.limit n) ∧ n.toNat = Count.maxLimit ∧
        SelectsFirst (Decimal.value digits)
          ⟨.limit n, some ⟨"number", .greater, .text "5"⟩⟩ records := by
  intro digits records
  have past : Count.maxLimit < Decimal.value digits := by decide +kernel
  have nonempty : digits ≠ [] := by decide +kernel
  have all : ∀ c ∈ digits, c.isDigit := List.all_eq_true.mp (by decide +kernel)
  obtain ⟨n, read, capped, selects⟩ := @numeralSelects ['+'] digits (.inr rfl) nonempty all
  refine ⟨past, n, read, capped.trans (Nat.min_eq_right (Nat.le_of_lt past)), ?_⟩
  exact selects records (by decide) _

end Query
end RecordQuery
