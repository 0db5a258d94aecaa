import RecordQuery.Proofs.Json.Reading
import RecordQuery.Proofs.Storage.Delivery

/-! Arrays written and read back. The lists that can be stored are those that a reader returns; of
each whose doubles the reader restores, the written text is read as the list itself, and so it is
written again as the same text. -/
namespace RecordQuery

namespace Json

theorem Storable.readBack {values : List Json} (storable : Storable maxDepth (.array values))
    {reader : DoubleReader} (restored : (Json.array values).Restored reader) :
    readArray? reader (Json.array values).bytes = some values := by
  rw [readArray?, ofBytes?, bytes, Text.decodeEncode, Option.bind_some, String.toList_ofList,
    storable.ofTextCompact restored]
  rfl

end Json

namespace Buffer

open Json (Storable maxDepth readArray?)

/-- Equal lists have equal keys in equal order, equal kinds of numbers and equal signs of zero. The
capacity of a buffer does not show in the text. -/
theorem deliverReadBack (reader : DoubleReader) (values : List Json) :
    (∀ source, readArray? reader source = some values → Storable maxDepth (.array values)) ∧
      (Storable maxDepth (.array values) → (Json.array values).Restored reader →
        ∀ capacity, ∃ text,
          deliver capacity (Sink.empty none) (values.map .value) = (.ok (), ⟨text, none⟩) ∧
          readArray? reader text = some values ∧
          ∀ again, readArray? reader text = some again → ∀ other,
            deliver other (Sink.empty none) (again.map .value) = (.ok (), ⟨text, none⟩)) := by
  refine ⟨fun source found => Json.readArrayStorable found, fun storable restored capacity => ?_⟩
  refine ⟨_, deliverUnlimited capacity values, storable.readBack restored, ?_⟩
  intro again found other
  rw [storable.readBack restored] at found
  cases Option.some.inj found
  exact deliverUnlimited other values

def boundaryValues : List Json :=
  [.object
      [("b\n", .array
          [.number (.integer 0xFFFFFFFFFFFFFFFF), .number (.integer (-0x8000000000000000)),
            .number (.double (Binary64.ofBits 0x8000000000000000)),
            .number (.double (Binary64.ofBits 0x4341C37937E08000)),
            .number (.double (Binary64.ofBits 1))]),
        ("", .object []), ("a\"\\", .string "\x01é😀")],
    .null, .array [.bool true]]

theorem deliverReadBackAtBounds :
    Storable maxDepth (.array boundaryValues) ∧ (Json.array boundaryValues).Restored .nearest ∧
      ∃ text,
        deliver 0 (Sink.empty none) (boundaryValues.map .value) = (.ok (), ⟨text, none⟩) ∧
        readArray? .nearest text = some boundaryValues ∧
        deliver 8192 (Sink.empty none) (boundaryValues.map .value) = (.ok (), ⟨text, none⟩) := by
  have storable : Storable (126 + 1) (.array boundaryValues) := by
    simp [boundaryValues, Storable.null, Storable.bool, Storable.string]
    decide
  have restored := storable.restoredNearest
  obtain ⟨text, written, read, again⟩ :=
    (deliverReadBack .nearest boundaryValues).2 storable restored 0
  have readStorable := (deliverReadBack .nearest boundaryValues).1 text read
  exact ⟨readStorable, restored, text, written, read, again boundaryValues read 8192⟩

end Buffer
end RecordQuery
