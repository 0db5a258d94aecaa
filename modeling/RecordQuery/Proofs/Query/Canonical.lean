import RecordQuery.Proofs.Query.Grammar

/-! The queries that the lenient reading produces, and those that it reads back from their own
text: they are the same. A value may start with a blank, but a blank at its end is lost. -/
namespace RecordQuery.Query

def Canonical (query : Query) : Prop :=
  ∀ condition, query.condition = some condition →
    IsKey condition.key.toList ∧
    ∃ text : String, condition.value = .text text ∧ Text.EndsSolid text.toList

theorem canonicalOfText {text : String} {query : Query}
    (read : ofText .lenient text = .ok query) : query.Canonical := by
  intro condition given
  cases ((readDecided .lenient text).1 query).mp read with
  | alone whole blanks solid read => nomatch given
  | clause whole blanks apart solid read letters ends admitted =>
    cases given
    obtain ⟨key, operator, operand⟩ := condition
    cases admitted with
    | asTyped => exact ⟨letters, _, rfl, by rwa [String.toList_ofList]⟩

theorem ofTextOfCanonical {query : Query} (canonical : query.Canonical) :
    ofText .lenient query.text = .ok query := by
  apply ofSpelled
  rw [text, String.toList_ofList]
  refine spelledChars fun condition given => ?_
  obtain ⟨letters, value, same, ends⟩ := canonical condition given
  have admitted : Strictness.Admitted .lenient condition.key value.toList
      (.text (String.ofList value.toList)) := .asTyped
  rw [String.ofList_toList] at admitted
  rw [same]
  exact ⟨letters, ends, admitted⟩

/- The texts that the lenient reading gives back as they were are those of the canonical queries,
and it never gives any other query. -/
theorem lenientInvertsText :
    (∀ query : Query, ofText .lenient query.text = .ok query ↔ query.Canonical) ∧
      ∀ (text : String) (query : Query), ofText .lenient text = .ok query →
        query.Canonical ∧ ofText .lenient query.text = .ok query := by
  refine ⟨fun query => ⟨canonicalOfText, ofTextOfCanonical⟩, ?_⟩
  intro text query read
  have canonical := canonicalOfText read
  exact ⟨canonical, ofTextOfCanonical canonical⟩

end RecordQuery.Query
