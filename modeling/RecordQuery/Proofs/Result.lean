/-! Results that are a value or an error: where the value or the error of a composed one comes
from. -/
namespace RecordQuery.Result

variable {ε δ α β : Type}

theorem mapOk {result : Except ε α} {f : α → β} {b : β} :
    result.map f = .ok b ↔ ∃ a, result = .ok a ∧ f a = b := by
  cases result with
  | error cause => exact ⟨nofun, nofun⟩
  | ok a => simp [Except.map]

theorem bindOk {result : Except ε α} {f : α → Except ε β} {b : β} :
    result.bind f = .ok b ↔ ∃ a, result = .ok a ∧ f a = .ok b := by
  cases result with
  | error cause => exact ⟨nofun, nofun⟩
  | ok a => simp [Except.bind]

theorem mapErrorOk {result : Except ε α} {f : ε → δ} {a : α} :
    result.mapError f = .ok a ↔ result = .ok a := by
  cases result with
  | error cause => exact ⟨nofun, nofun⟩
  | ok b =>
    constructor
    · intro same
      cases same
      rfl
    · intro same
      cases same
      rfl

theorem mapErrorError {result : Except ε α} {f : ε → δ} {cause : δ} :
    result.mapError f = .error cause ↔
      ∃ original, result = .error original ∧ f original = cause := by
  cases result with
  | error other =>
    constructor
    · intro same
      exact ⟨other, rfl, Except.error.inj same⟩
    · intro source
      obtain ⟨original, same, rfl⟩ := source
      cases same
      rfl
  | ok a => exact ⟨nofun, nofun⟩

/- A description of the values and one of the errors that leave nothing out: if what they describe
is the result, then nothing else is. -/
theorem decided {result : Except ε α} {value : α → Prop} {refusal : ε → Prop}
    (judged : (∃ a, value a) ∨ ∃ cause, refusal cause)
    (ofValue : ∀ {a}, value a → result = .ok a)
    (ofRefusal : ∀ {cause}, refusal cause → result = .error cause) :
    (∀ a, result = .ok a ↔ value a) ∧ ∀ cause, result = .error cause ↔ refusal cause := by
  rcases judged with ⟨b, good⟩ | ⟨reason, bad⟩
  · have same := ofValue good
    refine ⟨fun a => ⟨?_, ofValue⟩, fun cause => ⟨?_, ofRefusal⟩⟩
    · intro other
      cases same.symm.trans other
      exact good
    · intro other
      cases same.symm.trans other
  · have same := ofRefusal bad
    refine ⟨fun a => ⟨?_, ofValue⟩, fun cause => ⟨?_, ofRefusal⟩⟩
    · intro other
      cases same.symm.trans other
    · intro other
      cases same.symm.trans other
      exact bad

end RecordQuery.Result
