import RecordQuery.Json.Assembly
import RecordQuery.Json.Text

/-! Records: the objects of an input array. A record has no fixed fields; a query names the
field that it looks at. -/
namespace RecordQuery

structure Record where
  fields : Fields
  deriving Repr

namespace Record

def get? (record : Record) (key : String) : Option Json :=
  Fields.get? key record.fields

def ofPairs (pairs : List (String × Json)) : Record :=
  ⟨Fields.ofPairs pairs⟩

def toJson (record : Record) : Json :=
  .object record.fields

def ofJson? : Json → Option Record
  | .object fields => some ⟨fields⟩
  | _ => none

def readAll? (reader : DoubleReader) (bytes : Bytes) : Option (List Record) :=
  (Json.readArray? reader bytes).bind fun items => items.mapM ofJson?

def array (records : List Record) : Json :=
  .array (records.map toJson)

def knownFields : List String := ["region", "city", "number"]

def numericFields : List String := ["number"]

theorem ofJsonToJson (record : Record) : ofJson? record.toJson = some record := rfl

end Record

end RecordQuery
