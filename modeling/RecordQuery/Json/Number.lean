import RecordQuery.Decimal.Layout
import RecordQuery.Decimal.Literal
import RecordQuery.Json.Basic

/-! The texts of JSON numbers. A literal without a point and an exponent is an integer if it fits
64 bits; every other literal is left to a reader of doubles. Written, an integer is its digits, and
a double always shows a point or an exponent, so that it stays a double. -/
namespace RecordQuery

/-- What makes doubles of literals. It is a parameter: a literal may be refused or read as a
neighbour of the nearest double, but nothing that is infinite or no number is given back. -/
structure DoubleReader where
  read? : List Char → Option Binary64
  finite : ∀ {literal x}, read? literal = some x → x.isFinite

namespace DoubleReader

def nearest : DoubleReader where
  read? := Decimal.finiteLiteral?
  finite := fun found => (Option.filter_eq_some_iff.mp found).2

def number? (reader : DoubleReader) (literal : List Char) : Option Number :=
  (reader.read? literal).map .double

end DoubleReader

namespace Number

open Decimal (digits value splitDigits exponent?)

def layout : Decimal.Layout :=
  ⟨.toEven, fun power => -5 ≤ power && power < 16, ['.', '0']⟩

def integerChars (n : Int) : List Char :=
  (if n < 0 then ['-'] else []) ++ digits n.natAbs

def chars : Number → List Char
  | .integer n => integerChars n
  | .double x => layout.chars x

def maxInteger : Nat := 0xFFFFFFFFFFFFFFFF

def minInteger : Nat := 0x8000000000000000

def integer? (negative : Bool) (n : Nat) : Option Int :=
  if negative then
    if 0 < n ∧ n ≤ minInteger then some (-(n : Int)) else none
  else
    if n ≤ maxInteger then some n else none

def splitMinus : List Char → Bool × List Char
  | '-' :: rest => (true, rest)
  | rest => (false, rest)

def isWholePart (digits : List Char) : Bool :=
  match digits with
  | [] => false
  | ['0'] => true
  | '0' :: _ => false
  | _ => true

def read? (reader : DoubleReader) (text : List Char) : Option Number :=
  let (negative, body) := splitMinus text
  let (whole, rest) := splitDigits body
  if !isWholePart whole then none
  else
    match rest with
    | [] =>
      match integer? negative (value whole) with
      | some n => some (.integer n)
      | none => reader.number? text
    | '.' :: rest =>
      let (fraction, rest) := splitDigits rest
      if fraction = [] then none else (exponent? rest).bind fun _ => reader.number? text
    | rest => (exponent? rest).bind fun _ => reader.number? text

end Number

/-- The digits that are written for a number are read back as it. -/
def DoubleReader.Restores (reader : DoubleReader) (x : Binary64) : Prop :=
  reader.read? (Number.chars (.double x)) = some x

end RecordQuery
