import Mathlib.Data.List.FinRange
import RecordQuery.Proofs.Query.Selection

/-! Selection by positions. Equal records are told apart by where they stand in the list, so that
none is invented, lost, doubled or moved. -/
namespace RecordQuery

variable {records selection : List Record}

section

variable {length : Nat} {positions : List (Fin length)}

inductive Count.Chooses (positions : List (Fin length)) : Count → List (Fin length) → Prop where
  | all : Chooses positions .all positions
  | first {position} (member : position ∈ positions)
      (least : ∀ other ∈ positions, position ≤ other) : Chooses positions .first [position]
  | last {position} (member : position ∈ positions)
      (greatest : ∀ other ∈ positions, other ≤ position) : Chooses positions .last [position]
  | limit (n : UInt64) :
      Chooses positions (.limit n) (positions.take (min n.toNat positions.length))

theorem Count.Chooses.sublist {count : Count} {chosen : List (Fin length)}
    (chooses : count.Chooses positions chosen) : chosen.Sublist positions := by
  cases chooses with
  | all => exact List.Sublist.refl positions
  | first member _ => exact List.singleton_sublist.mpr member
  | last member _ => exact List.singleton_sublist.mpr member
  | limit n => exact List.take_sublist _ positions

theorem leastOfHead (increasing : positions.Pairwise (· < ·)) {position : Fin length}
    (head : positions.head? = some position) : ∀ other ∈ positions, position ≤ other := by
  obtain ⟨rest, rfl⟩ := List.head?_eq_some_iff.mp head
  intro other member
  rcases List.mem_cons.mp member with rfl | later
  · exact Fin.le_refl other
  · exact Fin.le_of_lt (List.rel_of_pairwise_cons increasing later)

theorem greatestOfLast (increasing : positions.Pairwise (· < ·)) {position : Fin length}
    (last : positions.getLast? = some position) : ∀ other ∈ positions, other ≤ position := by
  obtain ⟨front, rfl⟩ := List.getLast?_eq_some_iff.mp last
  obtain ⟨_, _, before⟩ := List.pairwise_append.mp increasing
  intro other member
  rcases List.mem_append.mp member with earlier | here
  · exact Fin.le_of_lt (before other earlier position List.mem_cons_self)
  · exact Fin.le_of_eq (List.mem_singleton.mp here)

end

theorem Count.takeChosen {count : Count} {positions : List (Fin records.length)}
    (increasing : positions.Pairwise (· < ·))
    (taken : count.take? (positions.map records.get) = some selection) :
    ∃ chosen, count.Chooses positions chosen ∧ selection = chosen.map records.get := by
  cases count with
  | all =>
    cases Option.some.inj taken
    exact ⟨positions, .all, rfl⟩
  | first =>
    rw [take?, List.head?_map, Option.map_map] at taken
    obtain ⟨position, head, rfl⟩ := Option.map_eq_some_iff.mp taken
    exact ⟨[position], .first (List.mem_of_mem_head? head) (leastOfHead increasing head), rfl⟩
  | last =>
    rw [take?, List.getLast?_map, Option.map_map] at taken
    obtain ⟨position, last, rfl⟩ := Option.map_eq_some_iff.mp taken
    exact ⟨[position], .last (List.mem_of_mem_getLast? last) (greatestOfLast increasing last), rfl⟩
  | limit n =>
    cases Option.some.inj taken
    refine ⟨_, .limit n, ?_⟩
    rw [List.map_take, List.take_eq_take_iff]
    simp

theorem Count.firstReverse (records : List Record) :
    Count.first.take? records = Count.last.take? records.reverse := by
  rw [take?, take?, List.getLast?_reverse]

namespace Query

def positions (query : Query) (records : List Record) : List (Fin records.length) :=
  (List.finRange records.length).filter fun position =>
    query.isMetBy (records.get position)

theorem positionsIncreasing (query : Query) (records : List Record) :
    (query.positions records).Pairwise (· < ·) :=
  (List.pairwise_lt_finRange records.length).filter _

theorem memPositions {query : Query} {position : Fin records.length} :
    position ∈ query.positions records ↔ query.isMetBy (records.get position) = true := by
  simp [positions]

theorem positionsRecords (query : Query) (records : List Record) :
    (query.positions records).map records.get = query.working records :=
  calc (query.positions records).map records.get
    _ = ((List.finRange records.length).map records.get).filter query.isMetBy := by
      rw [List.filter_map]
      rfl
    _ = query.working records := by rw [List.map_get_finRange, working]

theorem workingReverse (query : Query) (records : List Record) :
    query.working records.reverse = (query.working records).reverse :=
  List.filter_reverse ..

theorem firstReverse (condition : Option Condition) (records : List Record) :
    select? ⟨.first, condition⟩ records = select? ⟨.last, condition⟩ records.reverse := by
  have same : working ⟨.first, condition⟩ records = working ⟨.last, condition⟩ records := rfl
  simp only [selectWorking, workingReverse, same, List.reverse_eq_nil_iff, Count.firstReverse]

structure Picks (query : Query) (records : List Record) (positions : List (Fin records.length)) :
    Prop where
  increasing : positions.Pairwise (· < ·)
  meeting : ∀ position, position ∈ positions ↔ query.isMetBy (records.get position) = true
  nothing : query.select? records = none ↔
    positions = [] ∧ (query.condition.isSome ∨ query.count = .first ∨ query.count = .last)
  found : ∀ selection, query.select? records = some selection →
    ∃ chosen, query.count.Chooses positions chosen ∧ chosen.Sublist positions ∧
      selection = chosen.map records.get

theorem selectsByPosition (query : Query) (records : List Record) :
    Picks query records (query.positions records) ∧
      select? ⟨.first, query.condition⟩ records =
        select? ⟨.last, query.condition⟩ records.reverse := by
  refine ⟨⟨positionsIncreasing query records, fun _ => memPositions, ?nothing, ?found⟩,
    firstReverse query.condition records⟩
  case nothing =>
    rw [selectNone, ← positionsRecords, List.map_eq_nil_iff]
  case found =>
    intro selection selected
    have taken := selectTaken selected
    rw [← positionsRecords] at taken
    obtain ⟨chosen, chooses, same⟩ := Count.takeChosen (positionsIncreasing query records) taken
    exact ⟨chosen, chooses, chooses.sublist, same⟩

end Query
end RecordQuery
