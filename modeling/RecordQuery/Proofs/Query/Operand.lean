import RecordQuery.Proofs.Result
import RecordQuery.Query.Reading

/-! What becomes of the value as it was typed. The lenient reading keeps every text. The strict one
keeps it for a region or a city, makes a number of it for the number field, and refuses all other
keys, and in the number field all other texts. -/
namespace RecordQuery.Strictness

def ReadsAs (value : List Char) (x : Binary64) : Prop :=
  Decimal.literal? (Text.trim value) = some x ∧ x.isFinite

theorem finiteLiteralIff {value : List Char} {x : Binary64} :
    Decimal.finiteLiteral? (Text.trim value) = some x ↔ ReadsAs value x := by
  simp [Decimal.finiteLiteral?, ReadsAs, Option.filter_eq_some_iff]

inductive Admitted : Strictness → String → List Char → Operand → Prop where
  | asTyped {key value} : Admitted .lenient key value (.text (String.ofList value))
  | name {key value} (known : key = "region" ∨ key = "city") :
      Admitted .strict key value (.text (String.ofList value))
  | number {value x} (reads : ReadsAs value x) : Admitted .strict "number" value (.number x)

inductive Refused : Strictness → String → List Char → QueryError → Prop where
  | unknown {key value} (other : key ≠ "region" ∧ key ≠ "city" ∧ key ≠ "number") :
      Refused .strict key value (.unknownKey key)
  | number {value} (unread : ∀ x, ¬ ReadsAs value x) :
      Refused .strict "number" value (.nonNumericValue "number" (String.ofList value))

variable {strictness : Strictness} {key : String} {value : List Char}

theorem judged (strictness : Strictness) (key : String) (value : List Char) :
    (∃ operand, Admitted strictness key value operand) ∨
      ∃ cause, Refused strictness key value cause := by
  cases strictness with
  | lenient => exact .inl ⟨_, .asTyped⟩
  | strict =>
    by_cases region : key = "region"
    · exact .inl ⟨_, .name (.inl region)⟩
    by_cases city : key = "city"
    · exact .inl ⟨_, .name (.inr city)⟩
    by_cases number : key = "number"
    · subst number
      by_cases reads : ∃ x, ReadsAs value x
      · obtain ⟨x, reads⟩ := reads
        exact .inl ⟨_, .number reads⟩
      · exact .inr ⟨_, .number (not_exists.mp reads)⟩
    · exact .inr ⟨_, .unknown ⟨region, city, number⟩⟩

theorem operandNumber (value : List Char) :
    strict.operand "number" value =
      match Decimal.finiteLiteral? (Text.trim value) with
      | some x => .ok (.number x)
      | none => .error (.nonNumericValue "number" (String.ofList value)) := rfl

theorem ofAdmitted {operand : Operand} (admitted : Admitted strictness key value operand) :
    strictness.operand key value = .ok operand := by
  cases admitted with
  | asTyped => rfl
  | name known => rcases known with rfl | rfl <;> rfl
  | number reads => rw [operandNumber, finiteLiteralIff.mpr reads]

theorem ofRefused {cause : QueryError} (refused : Refused strictness key value cause) :
    strictness.operand key value = .error cause := by
  cases refused with
  | unknown other =>
    have unknown : key ∉ Record.knownFields := by simp [Record.knownFields, other]
    simp only [operand, if_pos unknown]
  | number unread =>
    have none : Decimal.finiteLiteral? (Text.trim value) = none :=
      Option.eq_none_iff_forall_ne_some.mpr fun x read => unread x (finiteLiteralIff.mp read)
    rw [operandNumber, none]

theorem operandDecided (strictness : Strictness) (key : String) (value : List Char) :
    (∀ operand, strictness.operand key value = .ok operand ↔
        Admitted strictness key value operand) ∧
      ∀ cause, strictness.operand key value = .error cause ↔
        Refused strictness key value cause :=
  Result.decided (judged strictness key value) ofAdmitted ofRefused

end RecordQuery.Strictness
