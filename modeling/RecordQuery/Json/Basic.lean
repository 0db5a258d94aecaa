import RecordQuery.Binary64

/-! JSON values. An object keeps its fields in the order in which their keys first came; a key
that comes again replaces the value and leaves the place. -/
namespace RecordQuery

inductive Number where
  | integer (n : Int)
  | double (x : Binary64)
  deriving DecidableEq, Repr

inductive Json where
  | null
  | bool (value : Bool)
  | number (value : Number)
  | string (value : String)
  | array (items : List Json)
  | object (fields : List (String × Json))
  deriving Repr

abbrev Fields := List (String × Json)

namespace Fields

def insert (key : String) (value : Json) : Fields → Fields
  | [] => [(key, value)]
  | field :: rest =>
    if field.1 = key then (key, value) :: rest else field :: insert key value rest

def get? (key : String) : Fields → Option Json
  | [] => none
  | field :: rest => if field.1 = key then some field.2 else get? key rest

def ofPairs (pairs : List (String × Json)) : Fields :=
  pairs.foldl (fun fields pair => insert pair.1 pair.2 fields) []

theorem getInsertSame (key : String) (value : Json) (fields : Fields) :
    get? key (insert key value fields) = some value := by
  induction fields with
  | nil => simp [insert, get?]
  | cons field rest ih =>
    simp only [insert]
    split
    · simp [get?]
    · rename_i other
      simp [get?, other, ih]

theorem getInsertOther {key other : String} (different : key ≠ other) (value : Json)
    (fields : Fields) : get? other (insert key value fields) = get? other fields := by
  induction fields with
  | nil => simp [insert, get?, different]
  | cons field rest ih =>
    simp only [insert]
    split
    · rename_i same
      have apart : field.1 ≠ other := same ▸ different
      simp [get?, different, apart]
    · simp [get?, ih]

theorem keysInsert (key : String) (value : Json) (fields : Fields) :
    (insert key value fields).map Prod.fst =
      if key ∈ fields.map Prod.fst then fields.map Prod.fst else fields.map Prod.fst ++ [key] := by
  induction fields with
  | nil => simp [insert]
  | cons field rest ih =>
    simp only [insert]
    split
    · rename_i same
      simp [same]
    · rename_i other
      have apart : key ≠ field.1 := fun same => other same.symm
      simp only [List.map_cons, ih, List.mem_cons, apart, false_or]
      split <;> simp

theorem insertNew {key : String} {fields : Fields} (fresh : key ∉ fields.map Prod.fst)
    (value : Json) : insert key value fields = fields ++ [(key, value)] := by
  induction fields with
  | nil => rfl
  | cons field rest ih =>
    simp only [List.map_cons, List.mem_cons, not_or] at fresh
    have other : field.1 ≠ key := fun same => fresh.1 same.symm
    simp [insert, other, ih fresh.2]

end Fields
end RecordQuery
