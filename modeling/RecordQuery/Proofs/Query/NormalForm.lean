import RecordQuery.Proofs.Decimal.Amount
import RecordQuery.Proofs.Query.Trichotomy

/-! Equality by normal forms. A number, a truth value and a text that reads as a finite number have
their exact amount for a normal form, every other text has itself. Two sides are equal exactly if
their normal forms are, so that no chain of texts and numbers leads from one value to another that
it does not equal. -/
namespace RecordQuery

namespace Operand

inductive NormalForm where
  | amount (units : Int)
  | text (text : String)
  deriving DecidableEq, Repr

def normalForm : Operand → NormalForm
  | .number x => .amount x.amount
  | .text s =>
    match Decimal.finiteLiteral? (Text.trim s.toList) with
    | some x => .amount x.amount
    | none => .text s

def Ordered (side : Operand) : Prop := ∀ x, side = .number x → x.isNaN = false

variable {left right side : Operand} {x y : Binary64}

theorem textOrdered (s : String) : (text s).Ordered := nofun

theorem wholeOrdered (n : Int) : (number (.ofInt n)).Ordered := by
  intro x same
  cases same
  exact Binary64.ofIntNumber n

theorem Reads.normal (reads : side.Reads x) : side.normalForm = .amount x.amount := by
  cases reads with
  | number ordered => rfl
  | text reads => rw [normalForm, Strictness.finiteLiteralIff.mpr reads]

theorem unreadNormal {s : String} (unread : (text s).Unread) :
    (text s).normalForm = .text s := by
  have none : Decimal.finiteLiteral? (Text.trim s.toList) = none :=
    Option.eq_none_iff_forall_ne_some.mpr fun x read =>
      unread x (.text (Strictness.finiteLiteralIff.mp read))
  rw [normalForm, none]

theorem Ordered.judged (ordered : side.Ordered) :
    (∃ x, side.Reads x) ∨ ∃ s, side = .text s ∧ side.Unread := by
  by_cases reads : ∃ x, side.Reads x
  · exact .inl reads
  · have unread : side.Unread := not_exists.mp reads
    cases side with
    | number x => exact absurd (.number (ordered x rfl)) (unread x)
    | text s => exact .inr ⟨s, rfl, unread⟩

end Operand

namespace Operator

open Operand (OfField Ordered Unread)

variable {left right value : Operand} {x y : Binary64} {field : Option Json}

theorem ordersAmounts {operator : Operator} :
    operator.Orders x.place y.place ↔ operator.Orders x.amount y.amount := by
  cases operator with
  | equal => exact Binary64.placeSame
  | greater | less => exact Binary64.placeLess

theorem equalReads (first : left.Reads x) (second : right.Reads y) :
    equal.relates left right ↔ x.amount = y.amount := by
  have numbers : equal.OrdersNumbers left right ↔ x.amount = y.amount :=
    (ordersNumbersOf first second).trans ordersAmounts
  rcases Operand.mixedOrTexts left right with mixed | ⟨s, t, rfl, rfl⟩
  · rw [relatesMixed mixed, numbers]
  · rw [equalTexts, numbers, or_iff_right_iff_imp]
    rintro rfl
    rw [first.one second]

theorem sameText {s t : String} :
    (∃ u, Operand.text s = .text u ∧ Operand.text t = .text u) ↔ s = t := by
  constructor
  · rintro ⟨u, first, second⟩
    cases first
    cases second
    rfl
  · rintro rfl
    exact ⟨s, rfl, rfl⟩

theorem equalUnread (unread : left.Unread ∨ right.Unread) :
    equal.relates left right ↔ ∃ s, left = .text s ∧ right = .text s := by
  rcases Operand.mixedOrTexts left right with mixed | ⟨s, t, rfl, rfl⟩
  · rw [relatesMixed mixed]
    refine iff_of_false (unorderedOf unread) ?_
    rintro ⟨s, rfl, rfl⟩
    exact mixed s s rfl rfl
  · rw [equalTexts, or_iff_left (unorderedOf unread), sameText]

theorem equalNormal (first : left.Ordered) (second : right.Ordered) :
    equal.relates left right ↔ left.normalForm = right.normalForm := by
  rcases first.judged with ⟨x, reads⟩ | ⟨s, rfl, unread⟩
  · rcases second.judged with ⟨y, readsToo⟩ | ⟨t, rfl, unread⟩
    · rw [equalReads reads readsToo, reads.normal, readsToo.normal, Operand.NormalForm.amount.injEq]
    · rw [equalUnread (.inr unread), reads.normal, Operand.unreadNormal unread]
      refine iff_of_false ?_ nofun
      rintro ⟨s, rfl, same⟩
      cases same
      exact unread x reads
  · rw [equalUnread (.inl unread), Operand.unreadNormal unread]
    rcases second.judged with ⟨y, reads⟩ | ⟨t, rfl, unreadToo⟩
    · rw [reads.normal]
      refine iff_of_false ?_ nofun
      rintro ⟨t, same, rfl⟩
      cases same
      exact unread y reads
    · rw [Operand.unreadNormal unreadToo, Operand.NormalForm.text.injEq, sameText]

structure Equality (field : Option Json) (side value : Operand) : Prop where
  normal : equal.holds field value ↔ side.normalForm = value.normalForm
  symmetric : ∀ other, OfField other value → (equal.holds other side ↔ equal.holds field value)
  transitive : ∀ other last, OfField other value → last.Ordered → equal.holds field value →
    equal.holds other last → equal.holds field last

theorem equalHolds (given : OfField field left) (first : left.Ordered) (second : value.Ordered) :
    equal.holds field value ↔ left.normalForm = value.normalForm := by
  rw [holdsGiven given, equalNormal first second]

/- Equality is that of normal forms, wherever the one side comes from a field; a text in a field is
equal to the same text in a condition, whether or not it reads as a number. -/
theorem equalByNormalForm :
    (∀ {field : Option Json} {side value : Operand}, OfField field side → side.Ordered →
      value.Ordered → Equality field side value) ∧
    ∀ s : String, equal.holds (some (.string s)) (.text s) := by
  constructor
  · intro field side value given first second
    refine ⟨equalHolds given first second, ?_, ?_⟩
    · intro other givenToo
      rw [equalHolds givenToo second first, equalHolds given first second, eq_comm]
    · intro other last givenToo third one two
      have same := (equalHolds given first second).mp one
      have sameToo := (equalHolds givenToo second third).mp two
      exact (equalHolds given first third).mpr (same.trans sameToo)
  · intro s
    exact (equalHolds (.string s) (Operand.textOrdered s) (Operand.textOrdered s)).mpr rfl

theorem equalAlongSevens :
    OfField (some (.string " 7.0")) (.text " 7.0") ∧ (Operand.text " 7.0").Ordered ∧
      OfField (some (.number (.integer 7))) (.number (.ofInt 7)) ∧
      (Operand.number (.ofInt 7)).Ordered ∧
      equal.holds (some (.string " 7.0")) (.number (.ofInt 7)) ∧
      equal.holds (some (.number (.integer 7))) (.text "07") ∧
      equal.holds (some (.string " 7.0")) (.text "07") := by
  have first : OfField (some (.string " 7.0")) (.text " 7.0") := .string _
  have second : OfField (some (.number (.integer 7))) (.number (.ofInt 7)) := .integer 7
  have ordered := Operand.wholeOrdered 7
  have one : equal.holds (some (.string " 7.0")) (.number (.ofInt 7)) = true := by decide +kernel
  have two : equal.holds (some (.number (.integer 7))) (.text "07") = true := by decide +kernel
  have law := equalByNormalForm.1 first (Operand.textOrdered " 7.0") ordered
  exact ⟨first, Operand.textOrdered " 7.0", second, ordered, one, two,
    law.transitive _ _ second (Operand.textOrdered "07") one two⟩

end Operator
end RecordQuery
