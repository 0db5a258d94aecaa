import RecordQuery.Proofs.Query.Grammar

/-! Which words are numbers, and which words are taken for one. A numeral is one or more digits
after an optional plus. Every numeral is read, and so is a word whose first digits pass the largest
limit, whatever follows them; every other word that is no keyword is refused. -/
namespace RecordQuery

namespace Count

def IsNumeral (word : List Char) : Prop :=
  unsigned word ≠ [] ∧ ∀ c ∈ unsigned word, c.isDigit

def PassesLimits (word : List Char) : Prop :=
  ∃ digits rest, unsigned word = digits ++ rest ∧ (∀ c ∈ digits, c.isDigit) ∧
    maxLimit < Decimal.value digits

variable {word : List Char}

theorem limitOfPassing (passes : PassesLimits word) : limit? word = some maxLimit := by
  obtain ⟨digits, rest, whole, all, past⟩ := passes
  have nonempty : unsigned word ≠ [] := by
    intro none
    rw [whole, List.append_eq_nil_iff] at none
    rw [none.1] at past
    contradiction
  rw [limit?, if_neg nonempty, whole]
  exact readLimitPast all rest (Nat.zero_le maxLimit) past

theorem limitOfNumeral (numeral : IsNumeral word) : (limit? word).isSome := by
  rw [limit?, if_neg numeral.1, readLimitDigits numeral.2 (Nat.zero_le maxLimit)]
  rfl

theorem limitOfStray (stray : ¬ IsNumeral word) (within : ¬ PassesLimits word) :
    limit? word = none := by
  unfold limit?
  split
  · rfl
  rename_i nonempty
  have whole := (List.takeWhile_append_dropWhile (p := Char.isDigit) (l := unsigned word)).symm
  have all := List.all_eq_true.mp (List.all_takeWhile (p := Char.isDigit) (l := unsigned word))
  have inside : ¬ maxLimit < Decimal.value ((unsigned word).takeWhile Char.isDigit) :=
    fun past => within ⟨_, _, whole, all, past⟩
  rw [whole, readLimitWithin all _ (Nat.le_of_not_lt inside)]
  cases rest : (unsigned word).dropWhile Char.isDigit with
  | nil =>
    rw [rest, List.append_nil] at whole
    rw [← whole] at all
    exact absurd ⟨nonempty, all⟩ stray
  | cons c others =>
    have letter := List.head?_dropWhile_not Char.isDigit (unsigned word)
    rw [rest] at letter
    rw [readLimit?, if_neg (Bool.eq_false_iff.mp letter)]

theorem ofKeyword (keyword : IsKeyword word) : (ofWord? word).isSome := by
  rcases keyword with rfl | rfl | rfl <;> rfl

structure Refused (word : List Char) : Prop where
  other : ¬ IsKeyword word
  stray : ¬ IsNumeral word
  within : ¬ PassesLimits word

theorem ofWordNone : ofWord? word = none ↔ Refused word := by
  constructor
  · intro unread
    have other : ¬ IsKeyword word := by
      intro keyword
      have read := ofKeyword keyword
      rw [unread] at read
      contradiction
    rw [ofWordOther other, Option.map_eq_none_iff] at unread
    refine ⟨other, ?_, ?_⟩
    · intro numeral
      have read := limitOfNumeral numeral
      rw [unread] at read
      contradiction
    · intro passes
      rw [limitOfPassing passes] at unread
      contradiction
  · intro refused
    rw [ofWordOther refused.other, limitOfStray refused.stray refused.within, Option.map_none]

end Count

namespace Query

variable {strictness : Strictness} {text : String} {word after : List Char}

theorem noInvalidCount {clause : List Char} {shown : String} :
    ¬ Condition.Fault strictness clause (.invalidCount shown) := by
  intro fault
  cases fault with
  | @operand key _ _ _ cut letters nonempty refused =>
    generalize String.ofList key = name at refused
    cases refused

theorem invalidCountSource {shown : String}
    (refused : ofText strictness text = .error (.invalidCount shown)) :
    ∃ word after, Text.FirstWord text.toList word after ∧ Count.ofWord? word = none ∧
      shown = String.ofList word := by
  have fault := ((readDecided strictness text).2 _).mp refused
  cases fault with
  | count first unread => exact ⟨_, _, first, unread, rfl⟩
  | clause counted second between fault => exact absurd fault noInvalidCount

theorem invalidCountIff (first : Text.FirstWord text.toList word after) :
    ofText strictness text = .error (.invalidCount (String.ofList word)) ↔
      Count.ofWord? word = none := by
  constructor
  · intro refused
    obtain ⟨_, _, again, unread, _⟩ := invalidCountSource refused
    obtain ⟨same, _⟩ := Prod.mk.inj (again.cut.symm.trans first.cut)
    rwa [same] at unread
  · intro unread
    exact ofFault (.count first unread)

theorem refusesStrayCount (strictness : Strictness) {text : String} {word after : List Char}
    (first : Text.FirstWord text.toList word after) :
    (Count.ofWord? word = none ↔ Count.Refused word) ∧
      (ofText strictness text = .error (.invalidCount (String.ofList word)) ↔
        Count.Refused word) :=
  ⟨Count.ofWordNone, (invalidCountIff first).trans Count.ofWordNone⟩

theorem refusesStrayTwelve :
    Text.FirstWord "+12x where".toList "+12x".toList " where".toList ∧
      ofText .strict "+12x where" = .error (.invalidCount "+12x") ∧
      Count.Refused "+12x".toList := by
  have first : Text.FirstWord "+12x where".toList "+12x".toList " where".toList :=
    @Text.FirstWord.between [] "+12x".toList [' '] "where".toList nofun (by decide) (by decide)
      (by decide) (.inl (by decide))
  have refused : ofText .strict "+12x where" = .error (.invalidCount "+12x") := by decide +kernel
  exact ⟨first, refused, (refusesStrayCount .strict first).2.mp refused⟩

/- Past the limits nothing is looked at any more, not even whether the word is a number. -/
theorem keepsStrayCount : ¬ ∀ word : List Char, Text.NoBlank word → ¬ Count.IsKeyword word →
    ¬ Count.IsNumeral word → Count.ofWord? word = none := by
  intro refused
  have other : ¬ Count.IsKeyword "99999999999999999999x".toList := by
    unfold Count.IsKeyword
    decide
  have stray : ¬ Count.IsNumeral "99999999999999999999x".toList := by
    intro numeral
    exact absurd (numeral.2 'x' (by decide)) (by decide)
  have unread := refused "99999999999999999999x".toList (by decide) other stray
  exact absurd unread (by decide +kernel)

end Query
end RecordQuery
