import RecordQuery.Decimal.Literal
import RecordQuery.Query.Basic
import RecordQuery.Record
import RecordQuery.Text.Blank
import RecordQuery.Text.Order

/-! Comparing a field with the value of a condition. Equality is of numbers if both sides read
as numbers, else of texts. Order is of texts if both sides are texts, else of numbers, and a side
that is no number has no order. A field that is missing, null, an array or an object meets no
condition. -/
namespace RecordQuery
namespace Operand

def ofJson? : Json → Option Operand
  | .number (.integer n) => some (.number (Binary64.ofInt n))
  | .number (.double x) => some (.number x)
  | .string s => some (.text s)
  | .bool value => some (.number (Binary64.ofInt (if value then 1 else 0)))
  | .null | .array _ | .object _ => none

def number? : Operand → Option Binary64
  | .number x => some x
  | .text s => Decimal.finiteLiteral? (Text.trim s.toList)

def equals (left right : Operand) : Bool :=
  match left.number?, right.number? with
  | some x, some y => x.compare? y == some .eq
  | _, _ =>
    match left, right with
    | .text s, .text t => s == t
    | _, _ => false

def order? (left right : Operand) : Option Ordering :=
  match left, right with
  | .text s, .text t => some (Text.order s.toList t.toList)
  | _, _ =>
    match left.number?, right.number? with
    | some x, some y => x.compare? y
    | _, _ => none

end Operand

def Operator.relates (operator : Operator) (left right : Operand) : Bool :=
  match operator with
  | equal => left.equals right
  | greater => left.order? right == some .gt
  | less => left.order? right == some .lt

def Operator.holds (operator : Operator) (field : Option Json) (value : Operand) : Bool :=
  match field.bind Operand.ofJson? with
  | some left => operator.relates left value
  | none => false

def Condition.isMetBy (condition : Condition) (record : Record) : Bool :=
  condition.operator.holds (record.get? condition.key) condition.value

end RecordQuery
