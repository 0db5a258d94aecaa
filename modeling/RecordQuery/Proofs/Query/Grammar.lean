import RecordQuery.Proofs.Query.Clause
import RecordQuery.Proofs.Query.Count

/-! The texts of queries and the errors of all other texts, by what stands in the text and with no
regard to how it is cut. Every text is one or the other, and the reading agrees. Blanks at either
end change nothing. -/
namespace RecordQuery.Query

open Text (Blanks NoBlank EndsSolid FirstWord Core)

/-- The texts of queries: a count between blanks, or a count, the keyword and a clause, with blanks
between them and around them. The clause is a key, an operator and a value that ends in no blank. -/
inductive Spelled (strictness : Strictness) (text : List Char) : Query → Prop where
  | alone {count before word after} (whole : text = before ++ word ++ after)
      (blanks : Blanks before ∧ Blanks after) (solid : NoBlank word)
      (read : Count.ofWord? word = some count) : Spelled strictness text ⟨count, none⟩
  | clause {count condition before word gap space value after}
      (whole : text = before ++ word ++ gap ++ whereWord ++ space ++
        (Condition.keyText condition.key.toList ++ condition.operator.char :: value) ++ after)
      (blanks : Blanks before ∧ Blanks gap ∧ Blanks space ∧ Blanks after)
      (apart : gap ≠ [] ∧ space ≠ []) (solid : NoBlank word)
      (read : Count.ofWord? word = some count) (letters : IsKey condition.key.toList)
      (ends : EndsSolid value)
      (admitted : Strictness.Admitted strictness condition.key value condition.value) :
      Spelled strictness text ⟨count, some condition⟩

structure Counted (text : List Char) (count : Count) (after : List Char) : Prop where
  word : ∃ word, FirstWord text word after ∧ Count.ofWord? word = some count

/-- What is wrong with a text, the first thing from its beginning. -/
inductive Fault (strictness : Strictness) (text : List Char) : QueryError → Prop where
  | count {word after} (first : FirstWord text word after)
      (unread : Count.ofWord? word = none) :
      Fault strictness text (.invalidCount (String.ofList word))
  | keyword {count after word behind} (counted : Counted text count after)
      (second : FirstWord after word behind) (there : word ≠ []) (other : word ≠ whereWord) :
      Fault strictness text .whereExpected
  | nothing {count after behind} (counted : Counted text count after)
      (second : FirstWord after whereWord behind) (blank : Blanks behind) :
      Fault strictness text .conditionMissing
  | clause {count after behind clause cause} (counted : Counted text count after)
      (second : FirstWord after whereWord behind) (between : Core behind clause)
      (fault : Condition.Fault strictness clause cause) : Fault strictness text cause

theorem whereSolid : NoBlank whereWord := by decide

theorem whereNonempty : whereWord ≠ [] := by decide

variable {strictness : Strictness} {text : String}

theorem ofWords {count : Count} {word after keyword behind : List Char}
    (first : FirstWord text.toList word after) (read : Count.ofWord? word = some count)
    (second : FirstWord after keyword behind) :
    ofText strictness text =
      if keyword = [] then .ok ⟨count, none⟩
      else if keyword ≠ whereWord then .error .whereExpected
      else if Text.trim behind = [] then .error .conditionMissing
      else (Condition.ofClause strictness (Text.trim behind)).map fun condition =>
        ⟨count, some condition⟩ := by
  have none : Text.trimStart after = [] ↔ keyword = [] :=
    Text.trimStartNil.trans second.noneIff.symm
  simp only [ofText, first.cut, read, none, Text.cutWordTrimmed, second.cut]
  rfl

theorem ofWhereWords {count : Count} {word after behind : List Char}
    (first : FirstWord text.toList word after) (read : Count.ofWord? word = some count)
    (second : FirstWord after whereWord behind) :
    ofText strictness text =
      if Text.trim behind = [] then .error .conditionMissing
      else (Condition.ofClause strictness (Text.trim behind)).map fun condition =>
        ⟨count, some condition⟩ := by
  rw [ofWords first read second, if_neg whereNonempty, if_neg (Decidable.not_not.mpr rfl)]

theorem ofClauseWords {count : Count} {word after behind clause : List Char}
    (first : FirstWord text.toList word after) (read : Count.ofWord? word = some count)
    (second : FirstWord after whereWord behind) (between : Core behind clause) :
    ofText strictness text =
      (Condition.ofClause strictness clause).map fun condition => ⟨count, some condition⟩ := by
  rw [ofWhereWords first read second, between.trimmed,
    if_neg (Text.endsSolidNonempty between.ends)]

theorem spelledWhole {before word gap space clause after : List Char} :
    before ++ word ++ gap ++ whereWord ++ space ++ clause ++ after =
      before ++ (word ++ (gap ++ (whereWord ++ (space ++ (clause ++ after))))) := by
  simp only [List.append_assoc]

theorem spelledWords {text before word gap space clause after : List Char}
    (whole : text = before ++ word ++ gap ++ whereWord ++ space ++ clause ++ after)
    (front : Blanks before) (solid : NoBlank word) (nonempty : word ≠ []) (gapBlanks : Blanks gap)
    (spaceBlanks : Blanks space) (apart : gap ≠ [] ∧ space ≠ []) :
    FirstWord text word (gap ++ (whereWord ++ (space ++ (clause ++ after)))) ∧
      FirstWord (gap ++ (whereWord ++ (space ++ (clause ++ after)))) whereWord
        (space ++ (clause ++ after)) := by
  rw [whole, spelledWhole]
  exact ⟨.between front solid nonempty gapBlanks (.inl apart.1),
    .between gapBlanks whereSolid whereNonempty spaceBlanks (.inl apart.2)⟩

theorem clauseCore {value space after : List Char} (key : List Char) (operator : Operator)
    (front : Blanks space) (back : Blanks after) (ends : EndsSolid value) :
    Core (space ++ (Condition.keyText key ++ operator.char :: value ++ after))
      (Condition.keyText key ++ operator.char :: value) := by
  refine ⟨⟨space, after, front, back, rfl⟩, ?_, ?_⟩
  · intro c head
    cases Option.some.inj head
    rfl
  · exact (Text.endsSolidBehind _ (Text.endsSolidNonempty ends)).mpr ends

theorem ofSpelled {query : Query} (spelled : Spelled strictness text.toList query) :
    ofText strictness text = .ok query := by
  cases spelled with
  | @alone count before word after whole blanks solid read =>
    have first : FirstWord text.toList word after := by
      have between := FirstWord.between blanks.1 solid (Count.wordNeNil read) blanks.2 (.inr rfl)
      rwa [List.append_nil, ← List.append_assoc, ← whole] at between
    obtain ⟨keyword, behind, second⟩ := Text.firstWord after
    rw [ofWords first read second, if_pos (second.noneIff.mpr blanks.2)]
  | @clause _ condition _ _ _ _ _ _ whole blanks apart solid read letters ends admitted =>
    obtain ⟨front, gap, space, back⟩ := blanks
    obtain ⟨first, second⟩ := spelledWords whole front solid (Count.wordNeNil read) gap space apart
    have between := clauseCore condition.key.toList condition.operator space back ends
    have clause := Condition.clauseFromSource
      ⟨letters, rfl, Text.endsSolidNonempty ends, Strictness.ofAdmitted admitted⟩
    rw [ofClauseWords first read second between]
    exact Result.mapOk.mpr ⟨condition, clause, rfl⟩

theorem ofFault {cause : QueryError} (fault : Fault strictness text.toList cause) :
    ofText strictness text = .error cause := by
  cases fault with
  | count first unread => simp only [ofText, first.cut, unread]
  | keyword counted second there other =>
    obtain ⟨word, first, read⟩ := counted.word
    rw [ofWords first read second, if_neg there, if_pos other]
  | nothing counted second blank =>
    obtain ⟨word, first, read⟩ := counted.word
    rw [ofWhereWords first read second, if_pos (Text.trimNil.mpr blank)]
  | clause counted second between fault =>
    obtain ⟨word, first, read⟩ := counted.word
    rw [ofClauseWords first read second between, Condition.ofFault fault]
    rfl

theorem spelledOfParts {text word after behind clause value : List Char} {count : Count}
    {condition : Condition} (first : FirstWord text word after)
    (read : Count.ofWord? word = some count) (second : FirstWord after whereWord behind)
    (between : Core behind clause)
    (source : Condition.ClauseSource strictness clause condition value) :
    Spelled strictness text ⟨count, some condition⟩ := by
  obtain ⟨before, front, rfl⟩ := first.parts
  obtain ⟨gap, gapBlanks, rfl⟩ := second.parts
  obtain ⟨space, trail, spaceBlanks, back, rfl⟩ := between.around
  obtain ⟨admitted, _⟩ := Strictness.operandDecided strictness condition.key value
  have cut := source.clause
  refine .clause ?whole ⟨front, gapBlanks, spaceBlanks, back⟩ ⟨?gap, ?space⟩ first.solid read
    source.letters ?ends ((admitted _).mp source.operand)
  case whole => rw [spelledWhole, cut, Condition.keyText]
  case gap =>
    rintro rfl
    exact absurd (first.stop 'w' rfl) (by decide)
  case space =>
    rintro rfl
    exact absurd (second.stop '%' (by rw [cut]; rfl)) (by decide)
  case ends =>
    have ends := between.ends
    rw [cut] at ends
    exact (Text.endsSolidBehind _ source.nonempty).mp ends

theorem judged (strictness : Strictness) (text : List Char) :
    (∃ query, Spelled strictness text query) ∨ ∃ cause, Fault strictness text cause := by
  obtain ⟨word, after, first⟩ := Text.firstWord text
  cases read : Count.ofWord? word with
  | none => exact .inr ⟨_, .count first read⟩
  | some count =>
    have counted : Counted text count after := ⟨word, first, read⟩
    obtain ⟨keyword, behind, second⟩ := Text.firstWord after
    by_cases none : keyword = []
    · obtain ⟨before, blanks, whole⟩ := first.parts
      rw [← List.append_assoc] at whole
      exact .inl ⟨_, .alone whole ⟨blanks, second.noneIff.mp none⟩ first.solid read⟩
    by_cases found : keyword = whereWord
    · subst found
      by_cases blank : Blanks behind
      · exact .inr ⟨_, .nothing counted second blank⟩
      have between := Text.coreOfTrim fun none => blank (Text.trimNil.mp none)
      rcases Condition.judged strictness (Text.trim behind) with
        ⟨condition, value, source⟩ | ⟨cause, fault⟩
      · exact .inl ⟨_, spelledOfParts first read second between source⟩
      · exact .inr ⟨_, .clause counted second between fault⟩
    · exact .inr ⟨_, .keyword counted second none found⟩

theorem readDecided (strictness : Strictness) (text : String) :
    (∀ query, ofText strictness text = .ok query ↔ Spelled strictness text.toList query) ∧
      ∀ cause, ofText strictness text = .error cause ↔ Fault strictness text.toList cause :=
  Result.decided (judged strictness text.toList) ofSpelled ofFault

theorem spelledChars {query : Query}
    (parts : ∀ condition, query.condition = some condition → IsKey condition.key.toList ∧
      EndsSolid condition.value.chars ∧
      Strictness.Admitted strictness condition.key condition.value.chars condition.value) :
    Spelled strictness query.chars query := by
  have nothing : Blanks [] := nofun
  have space : Blanks [' '] := by decide
  obtain ⟨count, condition⟩ := query
  cases condition with
  | none =>
    refine .alone ?_ ⟨nothing, nothing⟩ count.charsNoBlank count.ofWordChars
    simp [chars]
  | some condition =>
    obtain ⟨letters, ends, admitted⟩ := parts condition rfl
    have apart : [' '] ≠ [] := List.cons_ne_nil _ _
    refine .clause ?_ ⟨nothing, space, space, nothing⟩ ⟨apart, apart⟩ count.charsNoBlank
      count.ofWordChars letters ends admitted
    simp [chars, Condition.chars, Condition.keyText]

theorem Spelled.padded {text before after : List Char} {query : Query}
    (spelled : Spelled strictness text query) (front : Blanks before) (back : Blanks after) :
    Spelled strictness (before ++ (text ++ after)) query := by
  cases spelled with
  | alone whole blanks solid read =>
    exact .alone (by simp [whole]) ⟨front.append blanks.1, blanks.2.append back⟩ solid read
  | clause whole blanks apart solid read letters ends admitted =>
    obtain ⟨first, gap, space, last⟩ := blanks
    exact .clause (by simp [whole]) ⟨front.append first, gap, space, last.append back⟩ apart solid
      read letters ends admitted

theorem Counted.padded {text after front back : List Char} {count : Count}
    (counted : Counted text count after) (before : Blanks front) (behind : Blanks back) :
    Counted (front ++ (text ++ back)) count (after ++ back) := by
  obtain ⟨word, first, read⟩ := counted.word
  exact ⟨word, first.padded before behind, read⟩

theorem Fault.padded {text before after : List Char} {cause : QueryError}
    (fault : Fault strictness text cause) (front : Blanks before) (back : Blanks after) :
    Fault strictness (before ++ (text ++ after)) cause := by
  have nothing : Blanks [] := nofun
  cases fault with
  | count first unread => exact .count (first.padded front back) unread
  | keyword counted second there other =>
    exact .keyword (counted.padded front back) (second.padded nothing back) there other
  | nothing counted second blank =>
    exact .nothing (counted.padded front back) (second.padded nothing back) (blank.append back)
  | clause counted second between fault =>
    exact .clause (counted.padded front back) (second.padded nothing back) (between.padded back)
      fault

theorem readsGrammar (strictness : Strictness) (text : String) (query : Query) :
    ofText strictness text = .ok query ↔ Spelled strictness text.toList query :=
  (readDecided strictness text).1 query

theorem refusesFirstFault (strictness : Strictness) (text : String) :
    (∀ cause, ofText strictness text = .error cause ↔ Fault strictness text.toList cause) ∧
      ∀ before after : String, Blanks before.toList → Blanks after.toList →
        ofText strictness (before ++ text ++ after) = ofText strictness text := by
  refine ⟨(readDecided strictness text).2, ?_⟩
  intro before after front back
  have whole : (before ++ text ++ after).toList =
      before.toList ++ (text.toList ++ after.toList) := by
    simp
  rcases judged strictness text.toList with ⟨query, spelled⟩ | ⟨cause, fault⟩
  · rw [ofSpelled spelled]
    exact ofSpelled (whole ▸ spelled.padded front back)
  · rw [ofFault fault]
    exact ofFault (whole ▸ fault.padded front back)

example : ofText .strict "all where %town%=" = .error .valueMissing := by decide +kernel

theorem refusesWordBetweenBlanks :
    Blanks "\t ".toList ∧ Blanks "\u3000".toList ∧
      ofText .strict ("\t " ++ "all where %number%= x" ++ "\u3000") =
        .error (.nonNumericValue "number" " x") := by
  have front : Blanks "\t ".toList := by decide
  have back : Blanks "\u3000".toList := by decide
  have same := (refusesFirstFault .strict "all where %number%= x").2 _ _ front back
  exact ⟨front, back, same.trans (by decide +kernel)⟩

end RecordQuery.Query
