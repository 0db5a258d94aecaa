import RecordQuery.Json.Assembly
import RecordQuery.Proofs.Json.Storable

/-! Values put together from their tokens. From every point at which a value may come, its tokens
lead to the point after it, if the values that are still open leave it levels enough. -/
namespace RecordQuery

namespace Fields

def insertAll (pairs fields : Fields) : Fields :=
  pairs.foldl (fun fields pair => insert pair.1 pair.2 fields) fields

theorem insertAllNew {pairs : Fields} (fields : Fields)
    (distinct : ((fields ++ pairs).map Prod.fst).Nodup) :
    insertAll pairs fields = fields ++ pairs := by
  induction pairs generalizing fields with
  | nil => simp [insertAll]
  | cons pair rest ih =>
    have fresh : pair.1 ∉ fields.map Prod.fst := by
      intro member
      rw [List.map_append, List.map_cons, List.nodup_append] at distinct
      exact distinct.2.2 pair.1 member pair.1 List.mem_cons_self rfl
    have step : insert pair.1 pair.2 fields = fields ++ [pair] := insertNew fresh pair.2
    have later := ih (fields ++ [pair]) (by simpa using distinct)
    rw [insertAll, List.foldl_cons, step, ← insertAll, later]
    simp

theorem ofPairsDistinct {pairs : Fields} (distinct : (pairs.map Prod.fst).Nodup) :
    ofPairs pairs = pairs :=
  insertAllNew [] distinct

end Fields

namespace Json

open Progress (step within complete)

def Takes (before : Progress) (read : List Token) (after : Progress) : Prop :=
  read.foldlM step before = some after

theorem Takes.cons {before middle after : Progress} {token : Token} {later : List Token}
    (first : step before token = some middle) (others : Takes middle later after) :
    Takes before (token :: later) after := by
  rw [Takes, List.foldlM_cons, first]
  exact others

theorem Takes.append {before middle after : Progress} {front back : List Token}
    (first : Takes before front middle) (second : Takes middle back after) :
    Takes before (front ++ back) after := by
  rw [Takes, List.foldlM_append, first]
  exact second

theorem Takes.one {before after : Progress} {token : Token}
    (taken : step before token = some after) : Takes before [token] after :=
  .cons taken rfl

theorem tokensHead (value : Json) : ∃ token later, tokens value = token :: later ∧
    token ≠ .closeArray := by
  cases value with
  | array items => cases items <;> exact ⟨_, _, rfl, nofun⟩
  | object fields => cases fields <;> exact ⟨_, _, rfl, nofun⟩
  | _ => exact ⟨_, _, rfl, nofun⟩

theorem Progress.firstItemStep {stack : List Open} {token : Token} (other : token ≠ .closeArray) :
    step (within stack .firstItem) token = value stack token := by
  cases token <;> first | rfl | contradiction

theorem Progress.firstKeyStep {stack : List Open} {token : Token} (other : token ≠ .closeObject) :
    step (within stack .firstKey) token = key token stack := by
  cases token <;> first | rfl | contradiction

theorem takesFirst {stack : List Open} {value : Json} {after : Progress}
    (taken : Takes (within stack .value) (tokens value) after) :
    Takes (within stack .firstItem) (tokens value) after := by
  obtain ⟨token, later, same, other⟩ := tokensHead value
  rw [same] at taken ⊢
  rw [Takes, List.foldlM_cons, Progress.firstItemStep other]
  exact taken

def TakenIn (stack : List Open) (value : Json) : Prop :=
  ∀ after, complete value stack = some after → Takes (within stack .value) (tokens value) after

theorem takesItems {items : List Json} {outer : List Open}
    (each : ∀ item ∈ items, ∀ before, TakenIn (.array before :: outer) item) (before : List Json) :
    Takes (within (.array before :: outer) .separator) (tokensOfItems items)
      (within (.array (items.reverse ++ before) :: outer) .separator) := by
  induction items generalizing before with
  | nil => rfl
  | cons item rest ih =>
    obtain ⟨first, others⟩ := List.forall_mem_cons.mp each
    have later := ih others (item :: before)
    rw [List.reverse_cons, List.append_assoc]
    exact .cons rfl (.append (first before _ rfl) later)

theorem takesField {outer : List Open} {key : String} {value : Json} {before : Fields}
    (taken : TakenIn (.field before key :: outer) value) {later : List Token} {after : Progress}
    (others : Takes (within (.object (Fields.insert key value before) :: outer) .separator) later
      after) :
    Takes (within (.object before :: outer) .key)
      (.string key :: .colon :: (tokens value ++ later)) after :=
  .cons rfl (.cons rfl (.append (taken _ rfl) others))

theorem takesFields {fields : Fields} {outer : List Open}
    (each : ∀ field ∈ fields, ∀ before key, TakenIn (.field before key :: outer) field.2)
    (before : Fields) :
    Takes (within (.object before :: outer) .separator) (tokensOfFields fields)
      (within (.object (Fields.insertAll fields before) :: outer) .separator) := by
  induction fields generalizing before with
  | nil => rfl
  | cons field rest ih =>
    obtain ⟨first, others⟩ := List.forall_mem_cons.mp each
    exact .cons rfl (takesField (first before field.1) (ih others _))

theorem takesArray {items : List Json} {outer : List Open} (room : outer.length < maxDepth)
    (each : ∀ item ∈ items, ∀ before, TakenIn (.array before :: outer) item) :
    TakenIn outer (.array items) := by
  intro after completed
  have opened : step (within outer .value) .openArray =
      some (within (.array [] :: outer) .firstItem) := if_pos room
  cases items with
  | nil => exact .cons opened (.one completed)
  | cons item rest =>
    obtain ⟨first, others⟩ := List.forall_mem_cons.mp each
    have later := takesItems others [item]
    have closing : step (within (.array (rest.reverse ++ [item]) :: outer) .separator) .closeArray =
        some after := by
      rw [← completed]
      simp [step, Progress.separator, Progress.close]
    exact .cons opened (.append (takesFirst (first [] _ rfl)) (.append later (.one closing)))

theorem takesObject {pairs : Fields} {outer : List Open} (room : outer.length < maxDepth)
    (each : ∀ pair ∈ pairs, ∀ before key, TakenIn (.field before key :: outer) pair.2)
    {after : Progress} (completed : complete (.object (Fields.ofPairs pairs)) outer = some after) :
    Takes (within outer .value) (tokens (.object pairs)) after := by
  have opened : step (within outer .value) .openObject =
      some (within (.object [] :: outer) .firstKey) := if_pos room
  cases pairs with
  | nil => exact .cons opened (.one completed)
  | cons pair rest =>
    obtain ⟨first, others⟩ := List.forall_mem_cons.mp each
    have later := takesFields others (Fields.insert pair.1 pair.2 [])
    exact .cons opened (takesField (first [] pair.1) (.append later (.one completed)))

theorem Storable.taken {levels : Nat} {value : Json} (storable : Storable levels value)
    {stack : List Open} (room : stack.length + levels ≤ maxDepth) : TakenIn stack value := by
  induction storable generalizing stack with
  | array each ih =>
    refine takesArray (by omega) fun item member before => ih item member ?_
    rw [List.length_cons]
    omega
  | object distinct each ih =>
    intro after completed
    refine takesObject (by omega) (fun field member before key => ih field member ?_) ?_
    · rw [List.length_cons]
      omega
    · rw [Fields.ofPairsDistinct distinct]
      exact completed
  | _ => exact fun after completed => .one completed

theorem Storable.assembled {value : Json} (storable : Storable maxDepth value) :
    ofTokens? (tokens value) = some value := by
  have taken : Takes Progress.start (tokens value) (.done value) :=
    storable.taken (Nat.le_of_eq (Nat.zero_add _)) _ rfl
  rw [ofTokens?, taken]
  rfl

end Json
end RecordQuery
