import RecordQuery.Proofs.Text.Words
import RecordQuery.Report.Template

/-! Templates as literal texts with placeholders between them. A placeholder has braces at its ends
only, so that no two of them overlap and a template is written in one way. A line is written the
same way, with the texts of the fields for the placeholders. -/
namespace RecordQuery.Template

def IsFieldName (name : List Char) : Prop := name ≠ [] ∧ ∀ c ∈ name, isNameChar c

def placeholder (name : List Char) : List Char := '\x7b' :: (name ++ ['\x7d'])

def IsLiteral (text : List Char) : Prop :=
  ∀ name, IsFieldName name → ¬ placeholder name <:+: text

inductive Shown : Option Json → List Char → Prop where
  | missing : Shown none []
  | text (s : String) : Shown (some (.string s)) s.toList
  | other {value : Json} (noText : ∀ s, value ≠ .string s) : Shown (some value) value.compact

inductive Written where
  | literal (text : List Char)
  | field (text name : List Char) (after : Written)

namespace Written

def template : Written → List Char
  | literal text => text
  | field text name after => text ++ placeholder name ++ after.template

def Proper : Written → Prop
  | literal text => IsLiteral text
  | field text name after => IsLiteral text ∧ IsFieldName name ∧ after.Proper

def pieces : Written → List Piece
  | literal text => text.map .char
  | field text name after => text.map .char ++ .field name :: after.pieces

def cons (c : Char) : Written → Written
  | literal text => literal (c :: text)
  | field text name after => field (c :: text) name after

def ofPieces : List Piece → Written
  | [] => literal []
  | .char c :: rest => (ofPieces rest).cons c
  | .field name :: rest => field [] name (ofPieces rest)

inductive Fills (record : Record) : Written → List Char → Prop where
  | literal (text : List Char) : Fills record (literal text) text
  | field {text name value filled after} (shown : Shown (record.get? (String.ofList name)) value)
      (later : Fills record after filled) :
      Fills record (field text name after) (text ++ value ++ filled)

end Written

variable {text name rest : List Char}

theorem fieldShown (field : Option Json) : Shown field (fieldText field) := by
  cases field with
  | none => exact .missing
  | some value =>
    cases value with
    | string s => exact .text s
    | _ => exact .other nofun

theorem braceNoNameChar : isNameChar '\x7b' = false ∧ isNameChar '\x7d' = false := by
  decide +kernel

theorem placeholderIff : placeholder? text = some (name, rest) ↔
    IsFieldName name ∧ text = name ++ '\x7d' :: rest := by
  constructor
  · intro found
    unfold placeholder? at found
    split at found
    · rename_i c others after taken dropped
      cases Option.some.inj found
      have whole := (List.takeWhile_append_dropWhile (p := isNameChar) (l := text)).symm
      have all := List.all_eq_true.mp (List.all_takeWhile (p := isNameChar) (l := text))
      rw [taken] at all
      rw [taken, dropped] at whole
      exact ⟨⟨List.cons_ne_nil c others, all⟩, whole⟩
    · contradiction
  · rintro ⟨⟨nonempty, all⟩, rfl⟩
    have stop : ∀ c, ('\x7d' :: rest).head? = some c → isNameChar c = false := by
      intro c head
      cases Option.some.inj head
      exact braceNoNameChar.2
    obtain ⟨taken, dropped⟩ := Text.runAt all stop
    obtain ⟨c, others, rfl⟩ := List.exists_cons_of_ne_nil nonempty
    simp only [placeholder?, taken, dropped]

theorem piecesOther {c : Char} (other : c ≠ '\x7b') :
    pieces (c :: rest) = .char c :: pieces rest := by
  rw [pieces, if_neg other]

theorem piecesBrace (missing : placeholder? rest = none) :
    pieces ('\x7b' :: rest) = .char '\x7b' :: pieces rest := by
  rw [pieces, if_pos rfl]
  split
  · rename_i found
    rw [missing] at found
    contradiction
  · rfl

theorem piecesPlaceholder (known : IsFieldName name) :
    pieces (placeholder name ++ rest) = .field name :: pieces rest := by
  have found : placeholder? (name ++ '\x7d' :: rest) = some (name, rest) :=
    placeholderIff.mpr ⟨known, rfl⟩
  have parts : placeholder name ++ rest = '\x7b' :: (name ++ '\x7d' :: rest) := by
    simp [placeholder]
  rw [parts, pieces, if_pos rfl]
  split
  · rename_i same
    cases found.symm.trans same
    rfl
  · rename_i nothing
    rw [found] at nothing
    contradiction

theorem IsLiteral.tail {c : Char} (plain : IsLiteral (c :: text)) : IsLiteral text :=
  fun name known inside => plain name known (List.infix_cons inside)

theorem IsLiteral.cons {c : Char} (plain : IsLiteral text)
    (apart : c = '\x7b' → placeholder? (text ++ rest) = none) : IsLiteral (c :: text) := by
  intro name known inside
  rcases List.infix_cons_iff.mp inside with start | later
  · obtain ⟨more, whole⟩ := start
    obtain ⟨rfl, tail⟩ := List.cons.inj whole
    have found : placeholder? (text ++ rest) = some (name, more ++ rest) := by
      refine placeholderIff.mpr ⟨known, ?_⟩
      rw [← tail]
      simp
    rw [apart rfl] at found
    contradiction
  · exact plain name known later

theorem IsFieldName.noBrace (known : IsFieldName name) : '\x7b' ∉ name ++ ['\x7d'] := by
  rw [List.mem_append, List.mem_singleton]
  rintro (inside | closing)
  · have letter := known.2 _ inside
    rw [braceNoNameChar.1] at letter
    contradiction
  · contradiction

/-- A name and its closing brace would lie within the literal, or reach the opening brace of the
next placeholder, which is neither. -/
theorem IsLiteral.unopened (plain : IsLiteral ('\x7b' :: text))
    (next : ∀ c, rest.head? = some c → c = '\x7b') : placeholder? (text ++ rest) = none := by
  refine Option.eq_none_iff_forall_ne_some.mpr ?_
  rintro ⟨name, after⟩ found
  obtain ⟨known, whole⟩ := placeholderIff.mp found
  rw [List.append_cons, List.append_eq_append_iff] at whole
  rcases whole with ⟨more, ends, starts⟩ | ⟨more, ends, _⟩
  · cases more with
    | nil =>
      rw [List.append_nil] at ends
      rw [← ends] at plain
      exact plain name known (List.infix_refl _)
    | cons c more =>
      have brace : c = '\x7b' := next c (by rw [starts]; rfl)
      have inside : c ∈ name ++ ['\x7d'] := by simp [ends]
      rw [brace] at inside
      exact known.noBrace inside
  · rw [ends] at plain
    exact plain name known ⟨[], more, by simp [placeholder]⟩

theorem piecesLiteral (plain : IsLiteral text)
    (next : ∀ c, rest.head? = some c → c = '\x7b') :
    pieces (text ++ rest) = text.map .char ++ pieces rest := by
  induction text with
  | nil => rfl
  | cons c text ih =>
    rw [List.cons_append, List.map_cons, List.cons_append, ← ih plain.tail]
    by_cases brace : c = '\x7b'
    · subst brace
      exact piecesBrace (plain.unopened next)
    · exact piecesOther brace

namespace Written

variable {written : Written}

theorem piecesTemplate (proper : written.Proper) :
    Template.pieces written.template = written.pieces := by
  induction written with
  | literal text =>
    have alone : Template.pieces (text ++ []) = text.map .char ++ Template.pieces [] :=
      piecesLiteral proper nofun
    rwa [List.append_nil, Template.pieces, List.append_nil] at alone
  | field text name after ih =>
    obtain ⟨plain, known, later⟩ := proper
    have next : ∀ c, (placeholder name ++ after.template).head? = some c → c = '\x7b' := by
      intro c head
      exact (Option.some.inj head).symm
    rw [template, List.append_assoc, piecesLiteral plain next, piecesPlaceholder known, ih later]
    rfl

theorem ofPiecesPieces (written : Written) : ofPieces written.pieces = written := by
  induction written with
  | literal text =>
    induction text with
    | nil => rfl
    | cons c text ih => exact congrArg (cons c) ih
  | field text name after ih =>
    induction text with
    | nil => exact congrArg (field [] name) ih
    | cons c text ih => exact congrArg (cons c) ih

theorem templateCons (c : Char) (written : Written) :
    (written.cons c).template = c :: written.template := by
  cases written <;> rfl

theorem Proper.cons {c : Char} (proper : written.Proper)
    (apart : c = '\x7b' → placeholder? written.template = none) : (written.cons c).Proper := by
  cases written with
  | literal text =>
    rw [template, ← List.append_nil text] at apart
    exact IsLiteral.cons proper apart
  | field text name after =>
    rw [template, List.append_assoc] at apart
    exact ⟨IsLiteral.cons proper.1 apart, proper.2⟩

structure Spells (written : Written) (text : List Char) : Prop where
  whole : written.template = text
  proper : written.Proper

theorem Spells.cons {c : Char} (spells : written.Spells text)
    (apart : c = '\x7b' → placeholder? text = none) : (written.cons c).Spells (c :: text) := by
  obtain ⟨rfl, proper⟩ := spells
  exact ⟨templateCons c written, proper.cons apart⟩

theorem noPlaceholderInNothing : IsLiteral [] := by
  intro name known inside
  cases List.infix_nil.mp inside

theorem ofPiecesSpells (text : List Char) : (ofPieces (Template.pieces text)).Spells text := by
  fun_induction Template.pieces text with
  | case1 => exact ⟨rfl, noPlaceholderInNothing⟩
  | case2 rest name after found ih =>
    obtain ⟨known, rfl⟩ := placeholderIff.mp found
    refine ⟨?_, noPlaceholderInNothing, known, ih.proper⟩
    simp [ofPieces, template, ih.whole, placeholder]
  | case3 rest missing ih => exact ih.cons fun _ => missing
  | case4 c rest other ih => exact ih.cons fun brace => absurd brace other

theorem charsFill (record : Record) (text : List Char) :
    (text.map .char).flatMap (Piece.fill record) = text := by
  induction text with
  | nil => rfl
  | cons c text ih => exact congrArg (c :: ·) ih

theorem piecesFill (record : Record) (written : Written) :
    Fills record written (written.pieces.flatMap (Piece.fill record)) := by
  induction written with
  | literal text =>
    rw [pieces, charsFill]
    exact .literal text
  | field text name after ih =>
    rw [pieces, List.flatMap_append, charsFill, List.flatMap_cons, ← List.append_assoc]
    exact .field (fieldShown _) ih

theorem Spells.pieces (spells : written.Spells text) : Template.pieces text = written.pieces := by
  rw [← spells.whole, piecesTemplate spells.proper]

theorem Spells.filled {template : String} (spells : written.Spells template.toList)
    (record : Record) : Fills record written (line template record) := by
  rw [line, spells.pieces]
  exact piecesFill record written

end Written

/- A line is its template with the texts of the fields for the placeholders, and there is one way to
see the template as literal texts and placeholders. -/
theorem lineAsWritten (template : String) :
    ∃ written : Written, written.Spells template.toList ∧
      (∀ other : Written, other.Spells template.toList → other = written) ∧
      ∀ record : Record, Written.Fills record written (line template record) := by
  have spells := Written.ofPiecesSpells template.toList
  refine ⟨_, spells, ?_, spells.filled⟩
  intro other again
  rw [again.pieces, Written.ofPiecesPieces]

example : line "\x7ba\x7bb\x7d" ⟨[("a", .null), ("b", .string "\x7ba\x7d")]⟩ =
    "\x7ba\x7ba\x7d".toList := by
  decide +kernel

end RecordQuery.Template
