import RecordQuery.Decimal.Basic

/-! Number literals as people type them: an optional sign, then digits with an optional point
and an optional exponent, or a word for infinity or for what is not a number. Only ASCII counts,
digits may be missing on one side of the point, and leading zeros are allowed. -/
namespace RecordQuery.Decimal

def splitSign : List Char → Bool × List Char
  | '-' :: rest => (true, rest)
  | '+' :: rest => (false, rest)
  | rest => (false, rest)

def splitDigits (text : List Char) : List Char × List Char :=
  (text.takeWhile Char.isDigit, text.dropWhile Char.isDigit)

def exponent? : List Char → Option Int
  | [] => some 0
  | letter :: rest =>
    if letter = 'e' ∨ letter = 'E' then
      let (negative, body) := splitSign rest
      let (digits, after) := splitDigits body
      if digits = [] ∨ after ≠ [] then none
      else some (if negative then -(value digits : Int) else value digits)
    else none

def ofParts (whole fraction : List Char) (exponent : Int) : Decimal :=
  ⟨value (whole ++ fraction), exponent - fraction.length⟩

def magnitude? (text : List Char) : Option Decimal :=
  let (whole, rest) := splitDigits text
  let (fraction, rest) := match rest with
    | '.' :: rest => splitDigits rest
    | rest => ([], rest)
  if whole = [] ∧ fraction = [] then none
  else (exponent? rest).map (ofParts whole fraction)

def isInfinityWord (text : List Char) : Bool :=
  let word := text.map Char.toLower
  word == "inf".toList || word == "infinity".toList

def isNaNWord (text : List Char) : Bool :=
  text.map Char.toLower == "nan".toList

def literal? (text : List Char) : Option Binary64 :=
  let (negative, body) := splitSign text
  if isInfinityWord body then
    some (Binary64.ofRank negative Binary64.infinity (Nat.le_refl _))
  else if isNaNWord body then some (Binary64.nan negative)
  else (magnitude? body).map (toBinary64 negative)

def finiteLiteral? (text : List Char) : Option Binary64 :=
  (literal? text).filter Binary64.isFinite

end RecordQuery.Decimal
