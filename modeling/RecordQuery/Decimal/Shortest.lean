import RecordQuery.Decimal.Basic

/-! The decimal number with the fewest digits that is read back as a given binary number. For
each count of digits there are two candidates, the neighbours of the exact value among the
decimal numbers with that many digits. The first count with a candidate that is read back wins,
and of two such candidates the nearer to the exact value. -/
namespace RecordQuery.Decimal

inductive Tie where
  | toEven
  | up
  deriving DecidableEq, Repr

def exact (rank : Nat) : Decimal :=
  ⟨Binary64.units rank * Nat.pow 5 1074, -1074⟩

def Tie.takesLower (tie : Tie) (low rest step : Nat) : Bool :=
  2 * rest < step ||
    (2 * rest == step && match tie with
      | .toEven => low % 2 == 0
      | .up => false)

/-- The neighbour of `whole * 10 ^ -1074` on the grid of multiples of `10 ^ (dropped - 1074)`
that is read back as the rank, the nearer one if both are. -/
def neighbour? (tie : Tie) (rank whole dropped : Nat) : Option Decimal :=
  let step := powerOfTen dropped
  let low := whole / step
  let below : Decimal := ⟨low, (dropped : Int) - 1074⟩
  let above : Decimal := ⟨low + 1, (dropped : Int) - 1074⟩
  if below.rank = rank then
    if above.rank = rank && !tie.takesLower low (whole % step) step then some above
    else some below
  else if above.rank = rank then some above
  else none

def digitCounts : List Nat := List.range' 1 17

def shortest (tie : Tie) (rank : Nat) : Decimal :=
  let whole := (exact rank).significand
  let length := (digits whole).length
  (digitCounts.findSome? fun count => neighbour? tie rank whole (length - count)).getD (exact rank)

theorem neighbourRank {tie : Tie} {rank whole dropped : Nat} {d : Decimal}
    (found : neighbour? tie rank whole dropped = some d) : d.rank = rank := by
  simp only [neighbour?] at found
  split at found
  · split at found
    · rename_i both
      cases Option.some.inj found
      simp only [Bool.and_eq_true, decide_eq_true_eq] at both
      exact both.1
    · cases Option.some.inj found
      assumption
  · split at found
    · cases Option.some.inj found
      assumption
    · contradiction

end RecordQuery.Decimal
