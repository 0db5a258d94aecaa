import RecordQuery.Decimal.Literal
import RecordQuery.Query.Basic
import RecordQuery.Record
import RecordQuery.Text.Blank

/-! Reading queries. A lenient reading keeps the value of a condition as it was typed; a strict
one admits the known fields only and turns the value of a numeric field into a number. The first
thing wrong, from the count on, is the error. -/
namespace RecordQuery

inductive Strictness where
  | lenient
  | strict
  deriving DecidableEq, Repr

inductive QueryError where
  | invalidCount (word : String)
  | whereExpected
  | conditionMissing
  | operatorMissing
  | invalidKey (key : String)
  | valueMissing
  | unknownKey (key : String)
  | nonNumericValue (key value : String)
  deriving DecidableEq, Repr

def QueryError.message : QueryError → String
  | invalidCount _ => "Count must be 'all', 'first', 'last', or a number"
  | whereExpected => "wrong query"
  | conditionMissing => "Condition must follow 'where'"
  | operatorMissing => "Operator must be one of <, >, ="
  | invalidKey _ => "Key must be enclosed in % and contain only letters"
  | valueMissing => "Value must not be empty"
  | unknownKey _ => "Key must be one of region, city, number"
  | nonNumericValue key _ => "Value for '" ++ key ++ "' must be numeric"

namespace Count

def maxLimit : Nat := 0xFFFFFFFFFFFFFFFF

/-- Reads digits from the left, onto the number read so far. As soon as the number passes the
largest limit it is the largest limit, whatever follows; a character that is no digit before
that makes the word no number. -/
def readLimit? (sofar : Nat) : List Char → Option Nat
  | [] => some sofar
  | c :: rest =>
    if c.isDigit then
      let next := sofar * 10 + (c.toNat - '0'.toNat)
      if maxLimit < next then some maxLimit else readLimit? next rest
    else none

def unsigned : List Char → List Char
  | '+' :: digits => digits
  | digits => digits

def limit? (word : List Char) : Option Nat :=
  if unsigned word = [] then none else readLimit? 0 (unsigned word)

def ofWord? (word : List Char) : Option Count :=
  if word = "all".toList then some all
  else if word = "first".toList then some first
  else if word = "last".toList then some last
  else (limit? word).map fun n => limit (UInt64.ofNat n)

end Count

def Strictness.operand (strictness : Strictness) (key : String) (text : List Char) :
    Except QueryError Operand :=
  match strictness with
  | .lenient => .ok (.text (String.ofList text))
  | .strict =>
    if key ∉ Record.knownFields then .error (.unknownKey key)
    else if key ∉ Record.numericFields then .ok (.text (String.ofList text))
    else
      match Decimal.finiteLiteral? (Text.trim text) with
      | some x => .ok (.number x)
      | none => .error (.nonNumericValue key (String.ofList text))

namespace Condition

def splitOperator? : List Char → Option (List Char × Operator × List Char)
  | [] => none
  | c :: rest =>
    match Operator.ofChar? c with
    | some operator => some ([], operator, rest)
    | none =>
      (splitOperator? rest).map fun (before, operator, after) => (c :: before, operator, after)

def key? : List Char → Option (List Char)
  | '%' :: rest =>
    match rest.getLast? with
    | some '%' =>
      let key := rest.dropLast
      if key ≠ [] ∧ key.all Char.isAlpha then some key else none
    | _ => none
  | _ => none

def ofClause (strictness : Strictness) (clause : List Char) : Except QueryError Condition :=
  match splitOperator? clause with
  | none => .error .operatorMissing
  | some (before, operator, after) =>
    match key? before with
    | none => .error (.invalidKey (String.ofList before))
    | some key =>
      if after = [] then .error .valueMissing
      else
        (strictness.operand (String.ofList key) after).map fun value =>
          ⟨String.ofList key, operator, value⟩

end Condition

def Query.ofText (strictness : Strictness) (text : String) : Except QueryError Query :=
  let (word, rest) := Text.cutWord text.toList
  match Count.ofWord? word with
  | none => .error (.invalidCount (String.ofList word))
  | some count =>
    if rest = [] then .ok ⟨count, none⟩
    else
      let (keyword, clause) := Text.cutWord rest
      if keyword ≠ whereWord then .error .whereExpected
      else
        let clause := Text.trimEnd clause
        if clause = [] then .error .conditionMissing
        else (Condition.ofClause strictness clause).map fun condition => ⟨count, some condition⟩

end RecordQuery
