import RecordQuery.Decimal.Layout

/-! Queries: how many of the records are kept, and which of them qualify. Every query has a
text, `count` or `count where %key%<operator>value`. -/
namespace RecordQuery

inductive Count where
  | all
  | first
  | last
  | limit (n : UInt64)
  deriving DecidableEq, Repr

inductive Operator where
  | equal
  | greater
  | less
  deriving DecidableEq, Repr

inductive Operand where
  | text (text : String)
  | number (x : Binary64)
  deriving DecidableEq, Repr

structure Condition where
  key : String
  operator : Operator
  value : Operand
  deriving DecidableEq, Repr

structure Query where
  count : Count
  condition : Option Condition
  deriving DecidableEq, Repr

def Count.chars : Count → List Char
  | all => "all".toList
  | first => "first".toList
  | last => "last".toList
  | limit n => Decimal.digits n.toNat

def Operator.char : Operator → Char
  | equal => '='
  | greater => '>'
  | less => '<'

def Operator.ofChar? (c : Char) : Option Operator :=
  if c = '=' then some equal
  else if c = '>' then some greater
  else if c = '<' then some less
  else none

theorem Operator.ofCharChar (operator : Operator) : ofChar? operator.char = some operator := by
  cases operator <;> rfl

theorem Operator.charOfChar {c : Char} {operator : Operator}
    (known : ofChar? c = some operator) : operator.char = c := by
  unfold ofChar? at known
  split at known
  · cases Option.some.inj known
    rename_i same
    exact same.symm
  split at known
  · cases Option.some.inj known
    rename_i same
    exact same.symm
  split at known
  · cases Option.some.inj known
    rename_i same
    exact same.symm
  · contradiction

def Operand.layout : Decimal.Layout :=
  ⟨.up, fun _ => true, []⟩

def Operand.chars : Operand → List Char
  | .text s => s.toList
  | .number x => layout.chars x

def Condition.chars (condition : Condition) : List Char :=
  '%' :: (condition.key.toList ++ '%' :: condition.operator.char :: condition.value.chars)

def Query.whereWord : List Char := "where".toList

def Query.chars (query : Query) : List Char :=
  match query.condition with
  | none => query.count.chars
  | some condition => query.count.chars ++ ' ' :: (whereWord ++ ' ' :: condition.chars)

def Query.text (query : Query) : String :=
  String.ofList query.chars

end RecordQuery
