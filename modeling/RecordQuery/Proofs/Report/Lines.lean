import Mathlib.Algebra.Ring.Nat
import RecordQuery.Proofs.Report.Reading
import RecordQuery.Proofs.Report.Template

/-! The lines of a report. Values in JSON form have no line feeds, so that apart from the template
only the strings that stand for placeholders can break the line of a record. A report has one line
for each record just when none of them does. -/
namespace RecordQuery

theorem Numeric.oneLine {text : List Char} (numeric : Numeric text) : '\n' ∉ text := by
  intro inside
  have other := numeric '\n' inside
  contradiction

theorem Number.charsOneLine (number : Number) : '\n' ∉ number.chars := by
  cases number with
  | integer n =>
    rw [integerText]
    exact (Numeric.append (signNumeric _) (Decimal.numericDigits _)).oneLine
  | double x =>
    by_cases finite : x.isFinite
    · have numeric : Numeric (Number.double x).chars := charsNumeric finite
      exact numeric.oneLine
    · rw [chars, Decimal.Layout.chars, if_neg finite]
      split
      · decide
      · cases x.negative <;> decide

namespace Json

theorem Quoted.escapeCharOneLine (c : Char) : '\n' ∉ escapeChar c := by
  have form := escapeCharForm c
  generalize escapeChar c = written at form ⊢
  cases form with
  | @letter letter c understood =>
    have other : letter ≠ '\n' := by
      rintro rfl
      contradiction
    simp [other.symm]
  | control low =>
    have digits : ∀ n < 16, hexDigit n ≠ '\n' := by decide
    have high := digits (c.toNat / 16) (by omega)
    have last := digits (c.toNat % 16) (by omega)
    simp [high.symm, last.symm]
  | plain mark escape visible =>
    have other : c ≠ '\n' := by
      rintro rfl
      exact visible (by decide)
    simp [other.symm]

theorem Token.charsOneLine (token : Token) : '\n' ∉ token.chars := by
  cases token with
  | number value => exact value.charsOneLine
  | string value =>
    have escaped : '\n' ∉ Quoted.escape value.toList := by
      simp [Quoted.escape, Quoted.escapeCharOneLine]
    simp [chars, escaped]
  | bool value => cases value <;> decide
  | _ => decide

theorem compactOneLine (value : Json) : '\n' ∉ value.compact := by
  simp [compact, Token.charsOneLine]

end Json

namespace Template

def Piece.string? (record : Record) : Piece → Option String
  | char _ => none
  | field name =>
    match record.get? (String.ofList name) with
    | some (.string s) => some s
    | _ => none

def strings (template : String) (record : Record) : List String :=
  (pieces template.toList).filterMap (Piece.string? record)

def breaks (s : String) : Nat := s.toList.count '\n'

theorem memOfPieces {text : List Char} {c : Char} (member : .char c ∈ pieces text) : c ∈ text := by
  fun_induction pieces text with
  | case1 => contradiction
  | case2 rest name after found ih =>
    obtain ⟨_, rfl⟩ := placeholderIff.mp found
    have later : c ∈ after := ih (by simpa using member)
    simp [later]
  | case3 rest missing ih =>
    simp only [List.mem_cons, Piece.char.injEq] at member ⊢
    exact member.imp_right ih
  | case4 d rest other ih =>
    simp only [List.mem_cons, Piece.char.injEq] at member ⊢
    exact member.imp_right ih

theorem fillBreaks (record : Record) {piece : Piece} (plain : piece ≠ .char '\n') :
    (piece.fill record).count '\n' = ((piece.string? record).map breaks).getD 0 := by
  cases piece with
  | char c =>
    have other : c ≠ '\n' := fun same => plain (same ▸ rfl)
    simp [Piece.fill, Piece.string?, other]
  | field name =>
    simp only [Piece.fill, Piece.string?]
    have shown := fieldShown (record.get? (String.ofList name))
    generalize fieldText (record.get? (String.ofList name)) = text at shown ⊢
    generalize record.get? (String.ofList name) = found at shown ⊢
    cases shown with
    | missing => rfl
    | text s => rfl
    | @other value noText =>
      have none : value.compact.count '\n' = 0 := List.count_eq_zero.mpr value.compactOneLine
      cases value <;> first | exact none | exact absurd rfl (noText _)

theorem lineBreaks {template : String} (oneLine : '\n' ∉ template.toList) (record : Record) :
    (line template record).count '\n' = ((strings template record).map breaks).sum := by
  have plain : ∀ piece ∈ pieces template.toList, piece ≠ .char '\n' := by
    rintro piece member rfl
    exact oneLine (memOfPieces member)
  unfold line strings
  generalize pieces template.toList = all at plain
  induction all with
  | nil => rfl
  | cons piece rest ih =>
    obtain ⟨first, others⟩ := List.forall_mem_cons.mp plain
    rw [List.flatMap_cons, List.count_append, fillBreaks record first, ih others]
    cases found : piece.string? record <;> simp [found]

end Template

namespace Report

variable {ended : List (List Char)}

theorem countEnded (ended : List (List Char)) :
    (ended.flatMap (· ++ ['\n'])).count '\n' = ended.length + (ended.map (·.count '\n')).sum := by
  induction ended with
  | nil => rfl
  | cons line rest ih =>
    simp [ih]
    omega

theorem splitLength (text : List Char) :
    (text.splitOn '\n').length = text.count '\n' + 1 := by
  induction text with
  | nil => rfl
  | cons c rest ih =>
    rw [List.splitOn_cons_eq_if_modifyHead, List.count_cons]
    split <;> simp_all

theorem splitEnded (one : ∀ line ∈ ended, '\n' ∉ line) :
    (ended.flatMap (· ++ ['\n'])).splitOn '\n' = ended ++ [[]] := by
  induction ended with
  | nil => rfl
  | cons line rest ih =>
    obtain ⟨first, others⟩ := List.forall_mem_cons.mp one
    rw [List.flatMap_cons, List.append_assoc, List.singleton_append,
      List.splitOn_append_cons_self, List.splitOn_eq_singleton first, ih others]
    rfl

def layout (appearance : Appearance) (shows : Bool) (records : List Record) : List (List Char) :=
  let shows := appearance.colours && shows
  let separator := Style.muted.apply shows separator
  [] :: separator :: (records.map (Template.line appearance.template) ++
    [separator, Style.emphasis.apply shows (total records.length), []])

theorem textLayout (appearance : Appearance) (shows : Bool) (records : List Record) :
    text appearance shows records = (layout appearance shows records).flatMap (· ++ ['\n']) := by
  simp [text, layout, lines, List.flatMap_map]

theorem layoutLength (appearance : Appearance) (shows : Bool) (records : List Record) :
    (layout appearance shows records).length = records.length + 5 := by
  simp [layout]

variable {appearance : Appearance} {records : List Record}

theorem frameOneLine (shows : Bool) (records : List Record) :
    '\n' ∉ Style.muted.apply shows separator ∧
      '\n' ∉ Style.emphasis.apply shows (total records.length) :=
  ⟨Style.applyLine (by decide) (by decide), Style.applyLine (totalPlain _) (totalOneLine _)⟩

theorem recordsBreaks (oneLine : '\n' ∉ appearance.template.toList) (records : List Record) :
    (records.map fun record => (Template.line appearance.template record).count '\n').sum =
      ((records.flatMap (Template.strings appearance.template)).map Template.breaks).sum := by
  induction records with
  | nil => rfl
  | cons record rest ih =>
    rw [List.map_cons, List.sum_cons, ih, Template.lineBreaks oneLine, List.flatMap_cons,
      List.map_append, List.sum_append]

theorem layoutBreaks (shows : Bool) (oneLine : '\n' ∉ appearance.template.toList) :
    ((layout appearance shows records).map (·.count '\n')).sum =
      ((records.flatMap (Template.strings appearance.template)).map Template.breaks).sum := by
  obtain ⟨separatorLine, totalLine⟩ := frameOneLine (appearance.colours && shows) records
  rw [← recordsBreaks oneLine]
  simp [layout, List.count_eq_zero.mpr separatorLine, List.count_eq_zero.mpr totalLine,
    Function.comp_def]

theorem textBreaks (shows : Bool) (oneLine : '\n' ∉ appearance.template.toList) :
    (text appearance shows records).count '\n' = records.length + 5 +
      ((records.flatMap (Template.strings appearance.template)).map Template.breaks).sum := by
  rw [textLayout, countEnded, layoutLength, layoutBreaks shows oneLine]

theorem noBreaks {strings : List String} :
    (strings.map Template.breaks).sum = 0 ↔ ∀ s ∈ strings, '\n' ∉ s.toList := by
  simp [List.sum_eq_zero_iff_forall_eq_nat, Template.breaks, List.count_eq_zero]

theorem layoutOneLine (shows : Bool) (oneLine : '\n' ∉ appearance.template.toList)
    (plain : ∀ s ∈ records.flatMap (Template.strings appearance.template), '\n' ∉ s.toList) :
    ∀ line ∈ layout appearance shows records, '\n' ∉ line := by
  have none := (layoutBreaks shows oneLine).trans (noBreaks.mpr plain)
  intro line member
  have count := List.sum_eq_zero_iff_forall_eq_nat.mp none _ (List.mem_map_of_mem member)
  exact List.count_eq_zero.mp count

/- The line feeds beyond those that end the lines of a report are the ones of the strings that stand
for placeholders. -/
theorem linesCounted (appearance : Appearance) (shows : Bool) (records : List Record)
    (oneLine : '\n' ∉ appearance.template.toList) :
    let strings := records.flatMap (Template.strings appearance.template)
    let report := text appearance shows records
    report.count '\n' = records.length + 5 + (strings.map Template.breaks).sum ∧
      (report.count '\n' = records.length + 5 ↔ ∀ s ∈ strings, '\n' ∉ s.toList) ∧
      (report.splitOn '\n' = layout appearance shows records ++ [[]] ↔
        ∀ s ∈ strings, '\n' ∉ s.toList) := by
  intro strings report
  have counted : report.count '\n' = records.length + 5 + (strings.map Template.breaks).sum :=
    textBreaks shows oneLine
  have exactly : report.count '\n' = records.length + 5 ↔ ∀ s ∈ strings, '\n' ∉ s.toList := by
    rw [counted, ← noBreaks]
    omega
  refine ⟨counted, exactly, ?_, ?_⟩
  · intro split
    have lengths := congrArg List.length split
    rw [splitLength, List.length_append, layoutLength] at lengths
    exact exactly.mp (Nat.succ.inj lengths)
  · intro plain
    have lines := splitEnded (layoutOneLine shows oneLine plain)
    rwa [← textLayout] at lines

theorem linesCountedNested :
    let appearance : Appearance := ⟨false, "\x7bcity\x7d"⟩
    let records : List Record :=
      [⟨[("city", .array [.string "a\nb"])]⟩, ⟨[("city", .string "c")]⟩]
    '\n' ∉ appearance.template.toList ∧ (text appearance false records).count '\n' = 2 + 5 ∧
      (text appearance false records).splitOn '\n' = layout appearance false records ++ [[]] := by
  intro appearance records
  have oneLine : '\n' ∉ appearance.template.toList := by decide
  have plain : ∀ s ∈ records.flatMap (Template.strings appearance.template), '\n' ∉ s.toList := by
    decide +kernel
  obtain ⟨_, counted, split⟩ := linesCounted appearance false records oneLine
  exact ⟨oneLine, counted.mpr plain, split.mpr plain⟩

theorem valueBreaksLine :
    ¬ ∀ (template : String) (records : List Record), '\n' ∉ template.toList →
      (text ⟨false, template⟩ false records).count '\n' = records.length + 5 := by
  intro counted
  have six := counted "\x7bcity\x7d" [⟨[("city", .string "a\nb")]⟩] (by decide)
  exact absurd six (by decide +kernel)

end Report
end RecordQuery
