import RecordQuery.Proofs.Query.Selection

/-! Selecting in steps: by the condition first and by the count afterwards, or by the same query once
more. A limit of zero with a condition selects nothing of something, and then finds nothing to
select from. -/
namespace RecordQuery

variable {records selection : List Record}

theorem Count.takeAgain {count : Count} (taken : count.take? records = some selection) :
    count.take? selection = some selection := by
  cases count with
  | all => rfl
  | first =>
    obtain ⟨record, _, rfl⟩ := Option.map_eq_some_iff.mp taken
    rfl
  | last =>
    obtain ⟨record, _, rfl⟩ := Option.map_eq_some_iff.mp taken
    rfl
  | limit n =>
    cases Option.some.inj taken
    rw [take?, List.take_take, Nat.min_self]

theorem Count.takesNothing {count : Count} (something : records ≠ []) :
    count.take? records = some [] ↔ count = .limit 0 := by
  cases count with
  | all => simp [take?, something]
  | first => simp [take?]
  | last => simp [take?]
  | limit n => simp [take?, something, ← UInt64.toNat_inj]

namespace Query

variable {query : Query}

theorem selectionMeets (selected : query.select? records = some selection) :
    query.working selection = selection := by
  refine List.filter_eq_self.mpr fun record member => ?_
  have inside := (Count.takeSublist (selectTaken selected)).subset member
  exact (List.mem_filter.mp inside).2

theorem emptySelection (selected : query.select? records = some selection)
    (restricted : query.condition.isSome) : selection = [] ↔ query.count = .limit 0 := by
  have something : query.working records ≠ [] := by
    intro empty
    rw [selectNone.mpr ⟨empty, .inl restricted⟩] at selected
    contradiction
  rw [← Count.takesNothing something, selectTaken selected, Option.some.injEq]

theorem selectAgain (selected : query.select? records = some selection) :
    query.select? selection =
      if query.count = .limit 0 ∧ query.condition.isSome then none else some selection := by
  rw [selectWorking, selectionMeets selected, Count.takeAgain (selectTaken selected)]
  by_cases restricted : query.condition.isSome
  · simp [restricted, emptySelection selected restricted]
  · simp [restricted]

theorem selectStaged (condition : Condition) (count : Count) (records : List Record) :
    (select? ⟨.all, some condition⟩ records).bind (select? ⟨count, none⟩) =
      select? ⟨count, some condition⟩ records := by
  cases meeting : condition.meeting records with
  | nil => simp [select?, meeting]
  | cons record rest => simp [select?, meeting, Count.take?]

structure InSteps (condition : Condition) (count : Count) (records : List Record) : Prop where
  found : ∀ meeting, select? ⟨.all, some condition⟩ records = some meeting →
    select? ⟨count, none⟩ meeting = select? ⟨count, some condition⟩ records
  nothing : select? ⟨.all, some condition⟩ records = none →
    select? ⟨count, some condition⟩ records = none

/- A selection is what its own query selects from it, unless a limit of zero left no record that
could meet the condition. -/
theorem selectsInSteps :
    (∀ condition count records, InSteps condition count records) ∧
      ∀ (query : Query) (records selection : List Record),
        query.select? records = some selection →
        query.select? selection =
          if query.count = .limit 0 ∧ query.condition.isSome then none else some selection := by
  refine ⟨fun condition count records => ⟨?found, ?nothing⟩, fun _ _ _ => selectAgain⟩
  case found =>
    intro meeting selected
    rw [← selectStaged, selected, Option.bind_some]
  case nothing =>
    intro none
    rw [← selectStaged, none, Option.bind_none]

end Query
end RecordQuery
