import RecordQuery.Json.Text
import RecordQuery.Proofs.Json.Token

/-! The values that can be stored: those that a reader can give back. Whether one does is up to
what it makes of the digits of doubles. -/
namespace RecordQuery.Json

/-- A value that is at most so many arrays and objects deep, the value itself included; the keys
of each object are distinct and each number has a text of its own. -/
inductive Storable : Nat → Json → Prop where
  | null {levels} : Storable levels .null
  | bool {levels} (value : Bool) : Storable levels (.bool value)
  | number {levels} {value : Number} (storable : value.Storable) : Storable levels (.number value)
  | string {levels} (value : String) : Storable levels (.string value)
  | array {levels items} (each : ∀ item ∈ items, Storable levels item) :
      Storable (levels + 1) (.array items)
  | object {levels fields} (distinct : (fields.map Prod.fst).Nodup)
      (each : ∀ field ∈ fields, Storable levels field.2) : Storable (levels + 1) (.object fields)

@[simp] theorem storableArray {levels : Nat} {items : List Json} :
    Storable (levels + 1) (.array items) ↔ ∀ item ∈ items, Storable levels item :=
  ⟨fun | .array each => each, .array⟩

@[simp] theorem storableObject {levels : Nat} {fields : Fields} :
    Storable (levels + 1) (.object fields) ↔
      (fields.map Prod.fst).Nodup ∧ ∀ field ∈ fields, Storable levels field.2 :=
  ⟨fun | .object distinct each => ⟨distinct, each⟩, fun both => .object both.1 both.2⟩

@[simp] theorem storableNumber {levels : Nat} {value : Number} :
    Storable levels (.number value) ↔ value.Storable :=
  ⟨fun | .number storable => storable, .number⟩

def Restored (reader : DoubleReader) (value : Json) : Prop :=
  ∀ x, .number (.double x) ∈ tokens value → reader.Restores x

theorem Restored.one {reader : DoubleReader} {value : Json} (restored : value.Restored reader) :
    (array [value]).Restored reader := by
  intro x member
  refine restored x ?_
  simpa [tokens, tokensOfItems] using member

theorem Restored.token {reader : DoubleReader} {value : Json} (restored : value.Restored reader) :
    ∀ token ∈ tokens value, token.Restored reader := by
  intro token member
  cases token with
  | number number =>
    cases number with
    | integer n => trivial
    | double x => exact restored x member
  | _ => trivial

theorem itemsStorable {items : List Json}
    (each : ∀ item ∈ items, ∀ token ∈ tokens item, token.Storable) :
    ∀ token ∈ tokensOfItems items, token.Storable := by
  induction items with
  | nil => nofun
  | cons item rest ih =>
    obtain ⟨first, others⟩ := List.forall_mem_cons.mp each
    refine List.forall_mem_cons.mpr ⟨trivial, ?_⟩
    exact List.forall_mem_append.mpr ⟨first, ih others⟩

theorem fieldsStorable {fields : Fields}
    (each : ∀ field ∈ fields, ∀ token ∈ tokens field.2, token.Storable) :
    ∀ token ∈ tokensOfFields fields, token.Storable := by
  induction fields with
  | nil => nofun
  | cons field rest ih =>
    obtain ⟨first, others⟩ := List.forall_mem_cons.mp each
    refine List.forall_mem_cons.mpr ⟨trivial, List.forall_mem_cons.mpr ⟨trivial, ?_⟩⟩
    exact List.forall_mem_cons.mpr ⟨trivial, List.forall_mem_append.mpr ⟨first, ih others⟩⟩

theorem Storable.token {levels : Nat} {value : Json} (storable : Storable levels value) :
    ∀ token ∈ tokens value, token.Storable := by
  induction storable with
  | null => simp [tokens, Token.Storable]
  | bool value => simp [tokens, Token.Storable]
  | number storable => simpa [tokens, Token.Storable] using storable
  | string value => simp [tokens, Token.Storable]
  | @array levels items each ih =>
    cases items with
    | nil => simp [tokens, Token.Storable]
    | cons item rest =>
      obtain ⟨first, others⟩ := List.forall_mem_cons.mp ih
      simp only [tokens, List.forall_mem_cons, List.forall_mem_append]
      exact ⟨trivial, first, itemsStorable others, trivial, nofun⟩
  | @object levels fields distinct each ih =>
    cases fields with
    | nil => simp [tokens, Token.Storable]
    | cons field rest =>
      obtain ⟨first, others⟩ := List.forall_mem_cons.mp ih
      simp only [tokens, List.forall_mem_cons, List.forall_mem_append]
      exact ⟨trivial, trivial, trivial, first, fieldsStorable others, trivial, nofun⟩

theorem Storable.restoredNearest {levels : Nat} {value : Json} (storable : Storable levels value) :
    value.Restored .nearest :=
  fun _ member => DoubleReader.nearestRestores (storable.token _ member)

end RecordQuery.Json
