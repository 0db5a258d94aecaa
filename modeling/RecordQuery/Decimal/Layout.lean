import RecordQuery.Decimal.Shortest

/-! The text of a binary number: the digits of the shortest decimal number that is read back,
laid out with a point or with an exponent. A layout is the set of decisions that one kind of
text makes. -/
namespace RecordQuery.Decimal

structure Layout where
  tie : Tie
  positional : Int → Bool
  wholeEnd : List Char

def significantDigits (digits : List Char) : List Char :=
  (digits.reverse.dropWhile (· == '0')).reverse

def Layout.withPoint (layout : Layout) (digits : List Char) (power : Int) : List Char :=
  if power < 0 then
    '0' :: '.' :: (List.replicate (-power - 1).toNat '0' ++ digits)
  else
    let places := power.toNat + 1
    if digits.length ≤ places then
      digits ++ List.replicate (places - digits.length) '0' ++ layout.wholeEnd
    else
      digits.take places ++ '.' :: digits.drop places

def withExponent (digits : List Char) (power : Int) : List Char :=
  let mantissa := match digits with
    | [] => []
    | [digit] => [digit]
    | digit :: others => digit :: '.' :: others
  mantissa ++ 'e' :: (if power < 0 then '-' else '+') :: Decimal.digits power.natAbs

def Layout.magnitude (layout : Layout) (rank : Nat) : List Char :=
  if rank = 0 then '0' :: layout.wholeEnd
  else
    let d := shortest layout.tie rank
    let power := d.top - 1
    let digits := significantDigits (Decimal.digits d.significand)
    if layout.positional power then layout.withPoint digits power
    else withExponent digits power

def Layout.chars (layout : Layout) (x : Binary64) : List Char :=
  if x.isNaN then "NaN".toList
  else
    (if x.negative then ['-'] else []) ++
      (if x.isFinite then layout.magnitude x.rank else "inf".toList)

end RecordQuery.Decimal
