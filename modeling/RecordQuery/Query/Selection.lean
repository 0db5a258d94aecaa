import RecordQuery.Query.Comparison

/-! Applying a query to records. The records that meet the condition are taken in their order,
and the count keeps some of them. A condition that no record meets, and the first or last of no
records, give no result; a limit of zero gives the empty one. -/
namespace RecordQuery

def Condition.meeting (condition : Condition) (records : List Record) : List Record :=
  records.filter condition.isMetBy

def Count.take? (count : Count) (records : List Record) : Option (List Record) :=
  match count with
  | all => some records
  | first => records.head?.map fun record => [record]
  | last => records.getLast?.map fun record => [record]
  | limit n => some (records.take n.toNat)

def Query.select? (query : Query) (records : List Record) : Option (List Record) :=
  match query.condition with
  | none => query.count.take? records
  | some condition =>
    match condition.meeting records with
    | [] => none
    | record :: rest => query.count.take? (record :: rest)

end RecordQuery
