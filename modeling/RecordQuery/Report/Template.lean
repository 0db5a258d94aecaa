import RecordQuery.Record
import RecordQuery.Text.Alphanumeric

/-! Line templates. A field name in braces stands for the value of that field; every other
character, a brace that encloses no field name included, stands for itself. -/
namespace RecordQuery.Template

inductive Piece where
  | char (c : Char)
  | field (name : List Char)
  deriving DecidableEq, Repr

def isNameChar (c : Char) : Bool :=
  Text.isAlphanumeric c || c == '_'

def placeholder? (text : List Char) : Option (List Char × List Char) :=
  match text.takeWhile isNameChar, text.dropWhile isNameChar with
  | c :: name, '\x7d' :: rest => some (c :: name, rest)
  | _, _ => none

theorem placeholderShorter {text name rest : List Char}
    (found : placeholder? text = some (name, rest)) : rest.length < text.length := by
  unfold placeholder? at found
  split at found
  · rename_i dropped
    cases Option.some.inj found
    have shorter := (List.dropWhile_suffix isNameChar (l := text)).length_le
    rw [dropped, List.length_cons] at shorter
    omega
  · contradiction

def pieces (template : List Char) : List Piece :=
  match template with
  | [] => []
  | c :: rest =>
    if c = '\x7b' then
      match _found : placeholder? rest with
      | some (name, after) => .field name :: pieces after
      | none => .char c :: pieces rest
    else .char c :: pieces rest
termination_by template.length
decreasing_by
  · have := placeholderShorter _found
    simp only [List.length_cons]
    omega
  · simp
  · simp

def fieldText : Option Json → List Char
  | none => []
  | some (.string s) => s.toList
  | some value => value.compact

def Piece.fill (record : Record) : Piece → List Char
  | char c => [c]
  | field name => fieldText (record.get? (String.ofList name))

def line (template : String) (record : Record) : List Char :=
  (pieces template.toList).flatMap (Piece.fill record)

end RecordQuery.Template
