import Mathlib.Data.String.Basic
import RecordQuery.Proofs.Query.Trichotomy
import RecordQuery.Proofs.Text.Order

/-! What becomes of an order when its two sides change places. One side comes from a field and the
other from a condition, but both are compared as the same operands, so that less and greater change
places with them. Two texts are never compared as numbers: less is the order of their code points. -/
namespace RecordQuery

theorem Binary64.compareSwap (x y : Binary64) :
    (x.compare? y).map Ordering.swap = y.compare? x := by
  unfold compare?
  rw [Bool.or_comm]
  split
  · rfl
  rcases Int.lt_trichotomy x.place y.place with below | same | above
  · rw [if_pos below, if_neg (Int.lt_asymm below), if_pos below]
    rfl
  · rw [same, if_neg (Int.lt_irrefl _), if_neg (Int.lt_irrefl _)]
    rfl
  · rw [if_neg (Int.lt_asymm above), if_pos above, if_pos above]
    rfl

namespace Operand

theorem comparedSwap (x y : Operand) :
    (x.compared? y).map Ordering.swap = y.compared? x := by
  unfold compared?
  cases x.number? with
  | none => cases y.number? <;> rfl
  | some left =>
    cases y.number? with
    | none => rfl
    | some right => exact Binary64.compareSwap left right

theorem orderSwap (x y : Operand) : (x.order? y).map Ordering.swap = y.order? x := by
  rcases mixedOrTexts x y with mixed | ⟨s, t, rfl, rfl⟩
  · have mixedToo : Mixed y x := fun s t left right => mixed t s right left
    rw [orderMixed mixed, orderMixed mixedToo, comparedSwap]
  · simp only [order?, Option.map_some, Text.orderSwap]

end Operand

namespace Operator

open Operand (OfField)

theorem relatesExchanged (x y : Operand) : greater.relates x y = less.relates y x := by
  simp only [relates, ← Operand.orderSwap x y]
  cases x.order? y with
  | none => rfl
  | some o => cases o <;> rfl

theorem holdsExchanged {field other : Option Json} {x y : Operand} (first : OfField field x)
    (second : OfField other y) : greater.holds field y = less.holds other x := by
  rw [Bool.eq_iff_iff, holdsGiven first, holdsGiven second, relatesExchanged]

theorem lessTexts (s t : String) : less.holds (some (.string s)) (.text t) ↔ s < t := by
  rw [holdsGiven (.string s), relatesTexts, String.lt_iff_toList_lt, ← Text.orderLess]
  simp [ordering]

/- A field is greater than a value exactly if the value, found in a field, is less than that field's
operand. Two texts are in the order of their code points, which is that of their bytes and a strict
total order, even if both read as numbers. -/
theorem orderExchanges :
    (∀ {field other : Option Json} {x y : Operand}, OfField field x → OfField other y →
      greater.holds field y = less.holds other x) ∧
    (∀ s t : String, (less.holds (some (.string s)) (.text t) ↔ s < t) ∧
      (less.holds (some (.string s)) (.text t) ↔ Text.encode s < Text.encode t)) ∧
    IsStrictTotalOrder String fun s t => less.holds (some (.string s)) (.text t) := by
  refine ⟨holdsExchanged, fun s t => ⟨lessTexts s t, ?_⟩, ?_⟩
  · rw [lessTexts, Text.encodeLess, Text.orderLess, String.lt_iff_toList_lt]
  · have same : (fun s t => less.holds (some (.string s)) (.text t) = true) =
        fun s t : String => s < t :=
      funext fun s => funext fun t => propext (lessTexts s t)
    rw [same]
    infer_instance

theorem exchangesTenAndNine :
    OfField (some (.string " 10")) (.text " 10") ∧
      OfField (some (.number (.integer 9))) (.number (Binary64.ofInt 9)) ∧
      greater.holds (some (.string " 10")) (.number (Binary64.ofInt 9)) ∧
      less.holds (some (.number (.integer 9))) (.text " 10") := by
  have first : OfField (some (.string " 10")) (.text " 10") := .string _
  have second : OfField (some (.number (.integer 9))) (.number (Binary64.ofInt 9)) := .integer 9
  have held : greater.holds (some (.string " 10")) (.number (Binary64.ofInt 9)) = true := by
    decide +kernel
  exact ⟨first, second, held, (orderExchanges.1 first second).symm.trans held⟩

end Operator
end RecordQuery
