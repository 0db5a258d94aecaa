import RecordQuery.Proofs.Query.Grammar

/-! The strict reading as the lenient one and a check behind it. Every error of the lenient reading
is found before the value is looked at, so that both readings agree on it; what the check makes of
a query depends on its key and the text of its value alone. -/
namespace RecordQuery

open Strictness (Admitted Refused)

theorem Condition.Fault.strict {clause : List Char} {cause : QueryError}
    (fault : Condition.Fault .lenient clause cause) : Condition.Fault .strict clause cause := by
  cases fault with
  | operator absent => exact .operator absent
  | key cut absent other => exact .key cut absent other
  | value cut letters => exact .value cut letters
  | operand cut letters nonempty refused => nomatch refused

namespace Query

open Text (Blanks NoBlank EndsSolid)

/-- What the check makes of a lenient reading: an error and a query without a condition stay as
they are, and the text of a value is admitted or refused. -/
inductive Rechecked : Except QueryError Query → Except QueryError Query → Prop where
  | error (cause) : Rechecked (.error cause) (.error cause)
  | unrestricted (count) : Rechecked (.ok ⟨count, none⟩) (.ok ⟨count, none⟩)
  | admitted {count key operator value operand}
      (admitted : Admitted .strict key (String.toList value) operand) :
      Rechecked (.ok ⟨count, some ⟨key, operator, .text value⟩⟩)
        (.ok ⟨count, some ⟨key, operator, operand⟩⟩)
  | refused {count key operator value cause}
      (refused : Refused .strict key (String.toList value) cause) :
      Rechecked (.ok ⟨count, some ⟨key, operator, .text value⟩⟩) (.error cause)

theorem Rechecked.one {lenient first second : Except QueryError Query}
    (one : Rechecked lenient first) (other : Rechecked lenient second) : first = second := by
  cases one with
  | error cause =>
    cases other
    rfl
  | unrestricted count =>
    cases other
    rfl
  | admitted admitted =>
    have read := Strictness.ofAdmitted admitted
    cases other with
    | admitted admittedToo =>
      cases read.symm.trans (Strictness.ofAdmitted admittedToo)
      rfl
    | refused refused => nomatch read.symm.trans (Strictness.ofRefused refused)
  | refused refused =>
    have read := Strictness.ofRefused refused
    cases other with
    | admitted admitted => nomatch read.symm.trans (Strictness.ofAdmitted admitted)
    | refused refusedToo =>
      cases read.symm.trans (Strictness.ofRefused refusedToo)
      rfl

theorem Fault.strict {text : List Char} {cause : QueryError}
    (fault : Fault .lenient text cause) : Fault .strict text cause := by
  cases fault with
  | count first unread => exact .count first unread
  | keyword counted second there other => exact .keyword counted second there other
  | nothing counted second blank => exact .nothing counted second blank
  | clause counted second between fault => exact .clause counted second between fault.strict

theorem faultOfRefused {strictness : Strictness} {text before word gap space key value after}
    {count : Count} {operator : Operator} {cause : QueryError}
    (whole : text = before ++ word ++ gap ++ whereWord ++ space ++
      (Condition.keyText key ++ operator.char :: value) ++ after)
    (blanks : Blanks before ∧ Blanks gap ∧ Blanks space ∧ Blanks after)
    (apart : gap ≠ [] ∧ space ≠ []) (solid : NoBlank word)
    (read : Count.ofWord? word = some count) (letters : IsKey key) (ends : EndsSolid value)
    (refused : Refused strictness (String.ofList key) value cause) :
    Fault strictness text cause := by
  obtain ⟨front, gapBlanks, spaceBlanks, back⟩ := blanks
  obtain ⟨first, second⟩ :=
    spelledWords whole front solid (Count.wordNeNil read) gapBlanks spaceBlanks apart
  have between := clauseCore key operator spaceBlanks back ends
  exact .clause ⟨word, first, read⟩ second between
    (.operand rfl letters (Text.endsSolidNonempty ends) refused)

theorem rechecked (text : String) :
    Rechecked (ofText .lenient text) (ofText .strict text) := by
  rcases judged .lenient text.toList with ⟨query, spelled⟩ | ⟨cause, fault⟩
  · rw [ofSpelled spelled]
    cases spelled with
    | alone whole blanks solid read =>
      rw [ofSpelled (.alone whole blanks solid read)]
      exact .unrestricted _
    | @clause count condition _ _ _ _ value _ whole blanks apart solid read letters ends typed =>
      obtain ⟨key, operator, operand⟩ := condition
      cases typed
      rcases Strictness.judged .strict key value with ⟨operand, admitted⟩ | ⟨cause, refused⟩
      · have spelled : Spelled .strict text.toList ⟨count, some ⟨key, operator, operand⟩⟩ :=
          .clause whole blanks apart solid read letters ends admitted
        rw [ofSpelled spelled]
        exact .admitted (by rwa [String.toList_ofList])
      · have refusedHere : Refused .strict (String.ofList key.toList) value cause := by
          rwa [String.ofList_toList]
        rw [ofFault (faultOfRefused whole blanks apart solid read letters ends refusedHere)]
        exact .refused (by rwa [String.toList_ofList])
  · rw [ofFault fault, ofFault fault.strict]
    exact .error cause

theorem strictRechecksLenient (text : String) (result : Except QueryError Query) :
    ofText .strict text = result ↔ Rechecked (ofText .lenient text) result := by
  constructor
  · rintro rfl
    exact rechecked text
  · exact (rechecked text).one

end Query
end RecordQuery
