import RecordQuery.Query.Selection

/-! What a selection is made of. The count is applied to the records that meet the query, and keeps
some of them, each as it was, in the order they had. -/
namespace RecordQuery

variable {records selection : List Record}

theorem Count.takeSublist {count : Count} (taken : count.take? records = some selection) :
    selection.Sublist records := by
  cases count with
  | all =>
    cases Option.some.inj taken
    exact List.Sublist.refl records
  | first =>
    obtain ⟨record, head, rfl⟩ := Option.map_eq_some_iff.mp taken
    exact List.singleton_sublist.mpr (List.mem_of_mem_head? head)
  | last =>
    obtain ⟨record, last, rfl⟩ := Option.map_eq_some_iff.mp taken
    exact List.singleton_sublist.mpr (List.mem_of_mem_getLast? last)
  | limit n =>
    cases Option.some.inj taken
    exact List.take_sublist n.toNat records

theorem Count.takeNone (count : Count) (records : List Record) :
    count.take? records = none ↔ records = [] ∧ (count = .first ∨ count = .last) := by
  cases count <;> simp [take?]

namespace Query

def isMetBy (query : Query) (record : Record) : Bool :=
  query.condition.all fun condition => condition.isMetBy record

def working (query : Query) (records : List Record) : List Record :=
  records.filter query.isMetBy

theorem workingUnrestricted (count : Count) (records : List Record) :
    working ⟨count, none⟩ records = records :=
  List.filter_eq_self.mpr fun _ _ => rfl

theorem workingRestricted (count : Count) (condition : Condition) (records : List Record) :
    working ⟨count, some condition⟩ records = condition.meeting records :=
  rfl

theorem selectWorking (query : Query) (records : List Record) :
    query.select? records =
      if query.condition.isSome ∧ query.working records = [] then none
      else query.count.take? (query.working records) := by
  obtain ⟨count, condition⟩ := query
  cases condition with
  | none => simp [select?, workingUnrestricted]
  | some condition =>
    rw [workingRestricted]
    cases meeting : condition.meeting records <;> simp [select?, meeting]

theorem selectNone {query : Query} :
    query.select? records = none ↔ query.working records = [] ∧
      (query.condition.isSome ∨ query.count = .first ∨ query.count = .last) := by
  rw [selectWorking, ite_eq_left_iff, Count.takeNone]
  by_cases empty : query.working records = []
  · cases restricted : query.condition <;> simp [empty]
  · simp [empty]

theorem selectTaken {query : Query} (selected : query.select? records = some selection) :
    query.count.take? (query.working records) = some selection := by
  rw [selectWorking] at selected
  split at selected
  · contradiction
  · exact selected

theorem selectSublist {query : Query} (selected : query.select? records = some selection) :
    selection.Sublist records :=
  (Count.takeSublist (selectTaken selected)).trans List.filter_sublist

end Query
end RecordQuery
