import RecordQuery.Record

/-! Which bytes hold records: those of a text that spells an array whose items are all objects. -/
namespace RecordQuery.Record

def Spelled (reader : DoubleReader) (content : Bytes) (records : List Record) : Prop :=
  ∃ text, Text.encode text = content ∧ Json.ofText? reader text.toList = some (array records)

theorem ofJsonIff {json : Json} {record : Record} :
    ofJson? json = some record ↔ json = record.toJson := by
  constructor
  · intro found
    cases json <;> try contradiction
    cases Option.some.inj found
    rfl
  · intro same
    subst same
    exact ofJsonToJson record

theorem ofItemsIff {items : List Json} {records : List Record} :
    items.mapM ofJson? = some records ↔ items = records.map toJson := by
  induction items generalizing records with
  | nil => cases records <;> simp
  | cons item rest ih =>
    rw [List.mapM_cons]
    simp only [bind, Option.bind_eq_some_iff, pure, Option.some.injEq]
    constructor
    · intro source
      obtain ⟨record, found, later, others, rfl⟩ := source
      rw [ofJsonIff.mp found, ih.mp others, List.map_cons]
    · intro same
      cases records with
      | nil => nomatch same
      | cons record later =>
        obtain ⟨first, others⟩ := List.cons.inj same
        exact ⟨record, ofJsonIff.mpr first, later, ih.mpr others, rfl⟩

theorem readAllIff {reader : DoubleReader} {content : Bytes} {records : List Record} :
    readAll? reader content = some records ↔ Spelled reader content records := by
  unfold readAll? Json.readArray? Json.ofBytes?
  simp only [Option.bind_eq_some_iff]
  constructor
  · intro source
    obtain ⟨items, ⟨json, ⟨text, decoded, spelled⟩, array⟩, objects⟩ := source
    refine ⟨text, Text.encodeOfDecode decoded, ?_⟩
    cases json <;> try contradiction
    cases Option.some.inj array
    rw [spelled, ofItemsIff.mp objects, Record.array]
  · intro source
    obtain ⟨text, rfl, spelled⟩ := source
    exact ⟨records.map toJson, ⟨array records, ⟨text, Text.decodeEncode text, spelled⟩, rfl⟩,
      ofItemsIff.mpr rfl⟩

end RecordQuery.Record
