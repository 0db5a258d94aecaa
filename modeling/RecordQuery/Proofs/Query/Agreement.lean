import RecordQuery.Proofs.Query.Grammar
import RecordQuery.Query.Selection

/-! The strict and the lenient reading of one text. The two conditions differ in their value only,
which is a number or the text that reads as that number. A field that is no text compares the same
with both, and so does a text as long as it is only tested for equality; ordered, it is compared
with one as a number and with the other as a text. -/
namespace RecordQuery

variable {typed : String} {x : Binary64}

theorem Operand.equalsAlike (reads : (text typed).number? = some x) (field : Operand) :
    field.equals (text typed) = field.equals (number x) := by
  have value : (number x).number? = some x := rfl
  cases known : field.number? with
  | some y => simp only [equals, known, reads, value]
  | none =>
    simp only [equals, known]
    cases field with
    | number y => rfl
    | text s =>
      -- The same text would read as the number, too.
      refine beq_false_of_ne fun same => ?_
      rw [same, reads] at known
      contradiction

theorem Operand.orderAlike (reads : (text typed).number? = some x) (y : Binary64) :
    (number y).order? (text typed) = (number y).order? (number x) := by
  have value : (number x).number? = some x := rfl
  simp only [order?, reads, value]

theorem Operand.textOfJson {json : Json} {s : String} (side : ofJson? json = some (text s)) :
    json = .string s := by
  cases json with
  | number n => cases n <;> nomatch side
  | string t =>
    cases side
    rfl
  | _ => nomatch side

theorem Operator.holdsAlike (reads : (Operand.text typed).number? = some x) {operator : Operator}
    {field : Option Json} (compared : operator = equal ∨ ∀ s, field ≠ some (.string s)) :
    operator.holds field (.text typed) = operator.holds field (.number x) := by
  unfold holds
  cases side : field.bind Operand.ofJson? with
  | none => rfl
  | some left =>
    rcases compared with rfl | other
    · exact Operand.equalsAlike reads left
    cases left with
    | number y =>
      cases operator with
      | equal => exact Operand.equalsAlike reads (.number y)
      | greater | less => simp only [relates, Operand.orderAlike reads]
    | text s =>
      obtain ⟨json, found, same⟩ := Option.bind_eq_some_iff.mp side
      exact absurd (found.trans (congrArg some (Operand.textOfJson same))) (other s)

namespace Query

theorem selectMeeting {count : Count} {first second : Condition} {records : List Record}
    (same : ∀ record ∈ records, first.isMetBy record = second.isMetBy record) :
    (Query.mk count (some first)).select? records =
      (Query.mk count (some second)).select? records := by
  have meeting : first.meeting records = second.meeting records := List.filter_congr same
  simp only [select?, meeting]

theorem typedNumber {value : List Char} (reads : Strictness.ReadsAs value x) :
    (Operand.text (String.ofList value)).number? = some x := by
  rw [Operand.number?, String.toList_ofList]
  exact Strictness.finiteLiteralIff.mpr reads

/- A text that is read strictly is read leniently as well, and both queries select the same records
unless the condition orders texts in a numeric field. -/
theorem strictSelectsAlike {text : String} {strict : Query}
    (accepted : ofText .strict text = .ok strict) :
    ∃ lenient, ofText .lenient text = .ok lenient ∧
      ∀ records : List Record,
        (∀ condition, strict.condition = some condition →
          condition.operator = .equal ∨ condition.key ∉ Record.numericFields ∨
            ∀ record ∈ records, ∀ s, record.get? condition.key ≠ some (.string s)) →
        lenient.select? records = strict.select? records := by
  cases ((readDecided .strict text).1 strict).mp accepted with
  | alone whole blanks solid read =>
    exact ⟨_, ofSpelled (.alone whole blanks solid read), fun _ _ => rfl⟩
  | @clause count condition _ _ _ _ value _ whole blanks apart solid read letters ends admitted =>
    obtain ⟨key, operator, operand⟩ := condition
    refine ⟨⟨count, some ⟨key, operator, .text (String.ofList value)⟩⟩,
      ofSpelled (.clause whole blanks apart solid read letters ends .asTyped), ?_⟩
    intro records alike
    apply selectMeeting
    intro record member
    cases admitted with
    | name known => rfl
    | number reads =>
      apply Operator.holdsAlike (typedNumber reads)
      rcases alike _ rfl with equal | otherKey | noText
      · exact .inl equal
      · exact absurd List.mem_cons_self otherKey
      · exact .inr (noText record member)

theorem strictSelectsSevens :
    let text := "2 where %number%= 07 "
    let strict : Query := ⟨.limit 2, some ⟨"number", .equal, .number (Binary64.ofInt 7)⟩⟩
    let records : List Record := [⟨[("number", .string " 7.0")]⟩, ⟨[("number", .string "seven")]⟩,
      ⟨[("number", .number (.integer 7))]⟩]
    ofText .strict text = .ok strict ∧ (strict.select? records).map List.length = some 2 ∧
      ∃ lenient, ofText .lenient text = .ok lenient ∧
        lenient.select? records = strict.select? records := by
  intro text strict records
  have accepted : ofText .strict text = .ok strict := by decide +kernel
  obtain ⟨lenient, read, alike⟩ := strictSelectsAlike accepted
  refine ⟨accepted, by decide +kernel, lenient, read, alike records ?_⟩
  intro condition given
  cases given
  exact .inl rfl

example : Operator.greater.holds (some (.string "10")) (.number (Binary64.ofInt 9)) = true ∧
    Operator.less.holds (some (.string "10")) (.text "9") = true := by
  decide +kernel

end Query
end RecordQuery
