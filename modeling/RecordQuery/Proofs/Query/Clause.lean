import RecordQuery.Proofs.Query.Operand
import RecordQuery.Proofs.Text.Words

/-! What a clause is made of. It is cut at the first operator; before the operator stands a key of
letters between percent signs, after it the text of the value, which is not empty. Every other
clause has a fault. -/
namespace RecordQuery

def Operator.Absent (text : List Char) : Prop := ∀ c ∈ text, Operator.ofChar? c = none

def IsKey (key : List Char) : Prop := key ≠ [] ∧ ∀ c ∈ key, c.isAlpha

theorem Operator.ofLetter {c : Char} (letter : c.isAlpha) : Operator.ofChar? c = none := by
  have notEqual : c ≠ '=' := by rintro rfl; contradiction
  have notGreater : c ≠ '>' := by rintro rfl; contradiction
  have notLess : c ≠ '<' := by rintro rfl; contradiction
  simp [Operator.ofChar?, notEqual, notGreater, notLess]

namespace Condition

theorem splitOperatorSource {clause before after : List Char} {operator : Operator}
    (split : splitOperator? clause = some (before, operator, after)) :
    clause = before ++ operator.char :: after ∧ Operator.Absent before := by
  induction clause generalizing before with
  | nil => contradiction
  | cons c rest ih =>
    simp only [splitOperator?] at split
    cases known : Operator.ofChar? c with
    | some found =>
      rw [known] at split
      cases split
      exact ⟨by rw [Operator.charOfChar known]; rfl, by simp [Operator.Absent]⟩
    | none =>
      rw [known] at split
      obtain ⟨⟨front, _, _⟩, inner, same⟩ := Option.map_eq_some_iff.mp split
      cases same
      obtain ⟨cut, absent⟩ := ih inner
      refine ⟨by rw [cut]; rfl, ?_⟩
      intro d member
      rcases List.mem_cons.mp member with rfl | inside
      · exact known
      · exact absent d inside

theorem splitOperatorAt {before : List Char} (absent : Operator.Absent before)
    (operator : Operator) (after : List Char) :
    splitOperator? (before ++ operator.char :: after) = some (before, operator, after) := by
  induction before with
  | nil => simp [splitOperator?, Operator.ofCharChar]
  | cons c rest ih =>
    have head : Operator.ofChar? c = none := absent c List.mem_cons_self
    have tail : Operator.Absent rest := fun d member => absent d (List.mem_cons_of_mem c member)
    simp [splitOperator?, head, ih tail]

def keyText (key : List Char) : List Char := '%' :: (key ++ ['%'])

theorem keySource {before key : List Char} (found : key? before = some key) :
    before = keyText key ∧ IsKey key := by
  unfold key? at found
  split at found <;> try contradiction
  rename_i rest
  split at found <;> try contradiction
  rename_i last
  dsimp only at found
  split at found <;> try contradiction
  rename_i letters
  cases found
  obtain ⟨front, same⟩ := List.getLast?_eq_some_iff.mp last
  refine ⟨by rw [same, List.dropLast_concat, keyText], letters.1, ?_⟩
  exact List.all_eq_true.mp letters.2

theorem keyBetween {key : List Char} (letters : IsKey key) :
    key? (keyText key) = some key := by
  have all : key.all Char.isAlpha = true := List.all_eq_true.mpr letters.2
  simp [keyText, key?, letters.1, all]

theorem absentBetween {key : List Char} (letters : IsKey key) :
    Operator.Absent (keyText key) := by
  intro c member
  rw [keyText, List.mem_cons, List.mem_append, List.mem_singleton] at member
  rcases member with rfl | inside | rfl
  · rfl
  · exact Operator.ofLetter (letters.2 c inside)
  · rfl

structure ClauseSource (strictness : Strictness) (clause : List Char) (condition : Condition)
    (value : List Char) : Prop where
  letters : IsKey condition.key.toList
  clause : clause =
    '%' :: (condition.key.toList ++ ['%']) ++ condition.operator.char :: value
  nonempty : value ≠ []
  operand : strictness.operand condition.key value = .ok condition.value

theorem ofClauseFramed {key : List Char} (letters : IsKey key) (strictness : Strictness)
    (operator : Operator) (value : List Char) :
    ofClause strictness (keyText key ++ operator.char :: value) =
      if value = [] then .error .valueMissing
      else (strictness.operand (String.ofList key) value).map fun operand =>
        ⟨String.ofList key, operator, operand⟩ := by
  rw [ofClause, splitOperatorAt (absentBetween letters)]
  simp only [keyBetween letters]

theorem clauseFromSource {strictness : Strictness} {clause value : List Char}
    {condition : Condition} (source : ClauseSource strictness clause condition value) :
    ofClause strictness clause = .ok condition := by
  have read := ofClauseFramed source.letters strictness condition.operator value
  have whole : String.ofList condition.key.toList = condition.key := String.ofList_toList
  rw [if_neg source.nonempty, whole, source.operand] at read
  rw [source.clause]
  exact read

inductive Fault (strictness : Strictness) (clause : List Char) : QueryError → Prop where
  | operator (absent : Operator.Absent clause) : Fault strictness clause .operatorMissing
  | key {before operator after} (cut : clause = before ++ Operator.char operator :: after)
      (absent : Operator.Absent before) (other : ∀ key, IsKey key → before ≠ keyText key) :
      Fault strictness clause (.invalidKey (String.ofList before))
  | value {key operator} (cut : clause = keyText key ++ [Operator.char operator])
      (letters : IsKey key) : Fault strictness clause .valueMissing
  | operand {key operator value cause}
      (cut : clause = keyText key ++ Operator.char operator :: value) (letters : IsKey key)
      (nonempty : value ≠ [])
      (refused : Strictness.Refused strictness (String.ofList key) value cause) :
      Fault strictness clause cause

theorem splitOperatorNone {clause : List Char} :
    splitOperator? clause = none ↔ Operator.Absent clause := by
  induction clause with
  | nil => simp [splitOperator?, Operator.Absent]
  | cons c rest ih =>
    cases known : Operator.ofChar? c with
    | some operator => simp [splitOperator?, known, Operator.Absent]
    | none => simpa [splitOperator?, known, Operator.Absent] using ih

theorem judged (strictness : Strictness) (clause : List Char) :
    (∃ condition, ∃ value, ClauseSource strictness clause condition value) ∨
      ∃ cause, Fault strictness clause cause := by
  cases split : splitOperator? clause with
  | none => exact .inr ⟨_, .operator (splitOperatorNone.mp split)⟩
  | some parts =>
    obtain ⟨before, operator, value⟩ := parts
    obtain ⟨cut, absent⟩ := splitOperatorSource split
    by_cases framed : ∃ key, IsKey key ∧ before = keyText key
    · obtain ⟨key, letters, rfl⟩ := framed
      by_cases empty : value = []
      · exact .inr ⟨_, .value (empty ▸ cut) letters⟩
      rcases Strictness.judged strictness (String.ofList key) value with
        ⟨operand, admitted⟩ | ⟨cause, refused⟩
      · have same : (String.ofList key).toList = key := String.toList_ofList
        refine .inl ⟨⟨String.ofList key, operator, operand⟩, value, ?_, ?_, empty,
          Strictness.ofAdmitted admitted⟩
        · rwa [same]
        · rwa [same]
      · exact .inr ⟨_, .operand cut letters empty refused⟩
    · exact .inr ⟨_, .key cut absent fun key letters same => framed ⟨key, letters, same⟩⟩

theorem ofFault {strictness : Strictness} {clause : List Char} {cause : QueryError}
    (fault : Fault strictness clause cause) : ofClause strictness clause = .error cause := by
  cases fault with
  | operator absent => rw [ofClause, splitOperatorNone.mpr absent]
  | key cut absent other =>
    have none : key? _ = none := Option.eq_none_iff_forall_ne_some.mpr fun key found =>
      other key (keySource found).2 (keySource found).1
    rw [ofClause, cut, splitOperatorAt absent]
    simp only [none]
  | value cut letters => rw [cut, ofClauseFramed letters, if_pos rfl]
  | operand cut letters nonempty refused =>
    rw [cut, ofClauseFramed letters, if_neg nonempty, Strictness.ofRefused refused]
    rfl

end Condition
end RecordQuery
