import RecordQuery.Proofs.Json.Token
import RecordQuery.Proofs.Query.Grammar

/-! The queries that the strict reading produces, and those that it reads back from their own text:
they are the same. A number of any finite value and sign comes back; a text under the number key
does not, nor does a number under another key. -/
namespace RecordQuery

theorem Numeric.noBlank {text : List Char} (numeric : Numeric text) : Text.NoBlank text := by
  intro c member
  have kind := numeric c member
  simp only [Json.Token.isNumeric, Bool.or_eq_true, beq_iff_eq] at kind
  rcases kind with ((((digit | rfl) | rfl) | rfl) | rfl) | rfl
  · exact Count.digitNotBlank digit
  all_goals rfl

namespace Query

open Text (EndsSolid)

def StrictCanonical (query : Query) : Prop :=
  ∀ condition, query.condition = some condition →
    ((condition.key = "region" ∨ condition.key = "city") ∧
      ∃ text : String, condition.value = .text text ∧ EndsSolid text.toList) ∨
    (condition.key = "number" ∧ ∃ x : Binary64, condition.value = .number x ∧ x.isFinite)

theorem numberWord {x : Binary64} (finite : x.isFinite) :
    Text.NoBlank (Operand.number x).chars ∧ (Operand.number x).chars ≠ [] := by
  obtain ⟨text, d, written, form, _⟩ := Decimal.finiteText Operand.layout finite
  obtain ⟨c, rest, same, _⟩ := form.head
  have ending : Numeric Operand.layout.wholeEnd := nofun
  have numeric : Numeric (Operand.number x).chars := by
    rw [Operand.chars, written]
    exact .append (Number.signNumeric _) (form.numeric ending)
  refine ⟨numeric.noBlank, ?_⟩
  rw [Operand.chars, written, same]
  exact List.append_ne_nil_of_right_ne_nil _ (List.cons_ne_nil c rest)

theorem numberReads {x : Binary64} (finite : x.isFinite) :
    Strictness.ReadsAs (Operand.number x).chars x := by
  obtain ⟨solid, nonempty⟩ := numberWord finite
  refine ⟨?_, finite⟩
  rw [(Text.wordCore solid nonempty).trimmed]
  exact Decimal.literalOfChars (.inl rfl) finite

theorem knownKey {key : String} (known : key = "region" ∨ key = "city" ∨ key = "number") :
    IsKey key.toList := by
  have letters (word : List Char) (all : word.all Char.isAlpha) : ∀ c ∈ word, c.isAlpha :=
    List.all_eq_true.mp all
  rcases known with rfl | rfl | rfl
  · exact ⟨by decide, letters _ (by decide)⟩
  · exact ⟨by decide, letters _ (by decide)⟩
  · exact ⟨by decide, letters _ (by decide)⟩

theorem strictCanonicalOfText {text : String} {query : Query}
    (read : ofText .strict text = .ok query) : query.StrictCanonical := by
  intro condition given
  cases ((readDecided .strict text).1 query).mp read with
  | alone whole blanks solid read => nomatch given
  | clause whole blanks apart solid read letters ends admitted =>
    cases given
    obtain ⟨key, operator, operand⟩ := condition
    cases admitted with
    | name known => exact .inl ⟨known, _, rfl, by rwa [String.toList_ofList]⟩
    | number reads => exact .inr ⟨rfl, _, rfl, reads.2⟩

theorem ofTextOfStrictCanonical {query : Query} (canonical : query.StrictCanonical) :
    ofText .strict query.text = .ok query := by
  apply ofSpelled
  rw [text, String.toList_ofList]
  refine spelledChars fun condition given => ?_
  obtain ⟨key, operator, value⟩ := condition
  rcases canonical _ given with ⟨known, text, same, ends⟩ | ⟨number, x, same, finite⟩
  · cases same
    have admitted : Strictness.Admitted .strict key text.toList
        (.text (String.ofList text.toList)) := .name known
    rw [String.ofList_toList] at admitted
    exact ⟨knownKey (known.imp_right .inl), ends, admitted⟩
  · cases same
    cases number
    obtain ⟨solid, nonempty⟩ := numberWord finite
    exact ⟨knownKey (.inr (.inr rfl)), (Text.wordCore solid nonempty).ends,
      .number (numberReads finite)⟩

theorem strictInvertsText :
    (∀ query : Query, ofText .strict query.text = .ok query ↔ query.StrictCanonical) ∧
      ∀ (text : String) (query : Query), ofText .strict text = .ok query →
        query.StrictCanonical ∧ ofText .strict query.text = .ok query := by
  refine ⟨fun query => ⟨strictCanonicalOfText, ofTextOfStrictCanonical⟩, ?_⟩
  intro text query read
  have canonical := strictCanonicalOfText read
  exact ⟨canonical, ofTextOfStrictCanonical canonical⟩

end Query
end RecordQuery
