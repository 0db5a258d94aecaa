import Mathlib.Algebra.Order.Ring.Nat
import RecordQuery.Proofs.Decimal.Nearest

/-! Rounding. The magnitudes increase with their ranks, so that a magnitude lies between those of
two neighbours, or beyond all; the nearest rank is the nearer of the two, the even one if both are
equally near, and every other rank is farther. Hence rounding keeps the order of magnitudes. -/
namespace RecordQuery.Binary64

theorem unitsScaled {count significand : Nat} (normal : count = 0 ∨ octave ≤ significand)
    (most : significand ≤ 2 * octave) :
    units (count * octave + significand) = significand * 2 ^ count := by
  have positive : 0 < octave := by decide
  unfold units
  dsimp only
  rw [Nat.shiftLeft_eq, Nat.mul_comm count, Nat.mul_add_div positive]
  by_cases small : significand < octave
  · have first : count = 0 := normal.resolve_right (Nat.not_le.mpr small)
    subst first
    simp [Nat.div_eq_of_lt small]
  by_cases next : significand = 2 * octave
  · subst next
    have quotient : 2 * octave / octave = 2 := Nat.mul_div_cancel 2 positive
    have past : octave * count + 2 * octave - (count + 1) * octave = octave := by
      rw [Nat.add_mul, Nat.one_mul, Nat.mul_comm octave]
      omega
    rw [quotient]
    calc (octave * count + 2 * octave - (count + 1) * octave) * 2 ^ (count + 1)
      _ = octave * (2 * 2 ^ count) := by rw [past, Nat.pow_succ']
      _ = 2 * octave * 2 ^ count := by rw [← Nat.mul_assoc, Nat.mul_comm octave]
  · have quotient : significand / octave = 1 :=
      Nat.div_eq_of_lt_le (by omega) (by omega)
    rw [quotient, Nat.add_sub_cancel, Nat.mul_comm octave, Nat.add_sub_cancel_left]

theorem unitsNext (rank : Nat) : units rank < units (rank + 1) := by
  obtain ⟨least, below, normal⟩ := significandBounds rank
  have whole := Nat.add_sub_of_le least
  generalize doublings rank = count at whole below normal
  generalize rank - count * octave = significand at whole below normal
  rw [← whole, Nat.add_assoc, unitsScaled normal (by omega), unitsScaled (by omega) (by omega)]
  exact Nat.mul_lt_mul_of_pos_right (Nat.lt_succ_self _) (Nat.two_pow_pos _)

theorem unitsIncrease : StrictMono units := strictMono_nat_of_lt_succ unitsNext

def distance (dividend divisor rank : Nat) : Nat :=
  ((units rank * divisor : Nat) - (dividend : Int)).natAbs

/-- One rank is preferred to another for a magnitude of `dividend / divisor` units: it is nearer,
or both are equally near and it is even. -/
def Preferred (dividend divisor rank other : Nat) : Prop :=
  distance dividend divisor rank < distance dividend divisor other ∨
    distance dividend divisor rank = distance dividend divisor other ∧ rank % 2 = 0

section

variable {dividend divisor rank other : Nat}

theorem scaledIncrease (positive : 0 < divisor) :
    StrictMono fun rank => units rank * divisor :=
  fun _ _ less => Nat.mul_lt_mul_of_pos_right (unitsIncrease less) positive

theorem preferredBelow (positive : 0 < divisor) (above : units rank * divisor ≤ dividend)
    (less : other < rank) : Preferred dividend divisor rank other := by
  have further : units other * divisor < units rank * divisor := scaledIncrease positive less
  unfold Preferred distance
  omega

theorem preferredAbove (positive : 0 < divisor) (under : dividend ≤ units rank * divisor)
    (greater : rank < other) : Preferred dividend divisor rank other := by
  have further : units rank * divisor < units other * divisor := scaledIncrease positive greater
  unfold Preferred distance
  omega

theorem Preferred.trans {nearer : Nat} (first : Preferred dividend divisor rank nearer)
    (second : Preferred dividend divisor nearer other) :
    Preferred dividend divisor rank other := by
  unfold Preferred at *
  omega

theorem preferredNeighbour (below : Nat) (positive : 0 < divisor)
    (least : units below * divisor ≤ dividend)
    (most : dividend ≤ units (below + 1) * divisor)
    (chosen : rank = below ∧ Preferred dividend divisor below (below + 1) ∨
      rank = below + 1 ∧ Preferred dividend divisor (below + 1) below)
    (different : other ≠ rank) : Preferred dividend divisor rank other := by
  rcases chosen with ⟨rfl, preferred⟩ | ⟨rfl, preferred⟩
  · rcases Nat.lt_trichotomy other (rank + 1) with less | rfl | greater
    · exact preferredBelow positive least (by omega)
    · exact preferred
    · exact preferred.trans (preferredAbove positive most greater)
  · rcases Nat.lt_trichotomy other below with less | rfl | greater
    · exact preferred.trans (preferredBelow positive least less)
    · exact preferred
    · exact preferredAbove positive most (by omega)

theorem preferredOfGreatest {cap : Nat} (positive : 0 < divisor) (capped : cap < rank)
    (all : Preferred dividend divisor rank cap) (less : other < cap) :
    Preferred dividend divisor cap other := by
  have up : units cap * divisor < units rank * divisor := scaledIncrease positive capped
  refine preferredBelow positive ?_ less
  unfold Preferred distance at all
  omega

end

theorem quotientBounds {dividend divisor count : Nat}
    (reached : count = Nat.log2 (dividend / divisor) - 52) :
    dividend / (divisor <<< count) < 2 * octave ∧
      (count = 0 ∨ octave ≤ dividend / (divisor <<< count)) := by
  rw [Nat.shiftLeft_eq, ← Nat.div_div_eq_div_mul]
  generalize dividend / divisor = quotient at reached
  constructor
  · apply Nat.div_lt_of_lt_mul
    calc quotient
      _ < 2 ^ (quotient.log2 + 1) := Nat.lt_log2_self
      _ ≤ 2 ^ (count + 53) := Nat.pow_le_pow_right (by decide) (by omega)
      _ = 2 ^ count * (2 * octave) := Nat.pow_add 2 count 53
  · refine or_iff_not_imp_left.mpr fun nonzero => ?_
    rw [Nat.le_div_iff_mul_le (Nat.two_pow_pos count)]
    have large : quotient ≠ 0 := by
      rintro rfl
      exact nonzero reached
    calc octave * 2 ^ count
      _ = 2 ^ (52 + count) := (Nat.pow_add 2 52 count).symm
      _ = 2 ^ quotient.log2 := by congr 1; omega
      _ ≤ quotient := Nat.log2_self_le large

theorem unitsTimes {count : Nat} (significand divisor : Nat)
    (normal : count = 0 ∨ octave ≤ significand) (most : significand ≤ 2 * octave) :
    units (count * octave + significand) * divisor = significand * (divisor <<< count) := by
  rw [unitsScaled normal most, Nat.shiftLeft_eq, Nat.mul_assoc, Nat.mul_comm (2 ^ count)]

theorem octavesEven (count significand : Nat) :
    (count * octave + significand) % 2 = significand % 2 := by
  have even : octave % 2 = 0 := rfl
  rw [Nat.add_mod, Nat.mul_mod, even, Nat.mul_zero, Nat.zero_mod, Nat.zero_add, Nat.mod_mod]

theorem divideToEvenPreferred {dividend divisor count other : Nat} (positive : 0 < divisor)
    (reached : count = Nat.log2 (dividend / divisor) - 52)
    (different : other ≠ count * octave + divideToEven dividend (divisor <<< count)) :
    Preferred dividend divisor (count * octave + divideToEven dividend (divisor <<< count))
      other := by
  obtain ⟨few, normal⟩ := quotientBounds reached
  have widened : 0 < divisor <<< count := by
    rw [Nat.shiftLeft_eq]
    exact Nat.mul_pos positive (Nat.two_pow_pos count)
  have whole := Nat.div_add_mod' dividend (divisor <<< count)
  have part := Nat.mod_lt dividend widened
  have lower := unitsTimes (dividend / (divisor <<< count)) divisor normal (Nat.le_of_lt few)
  have upper := unitsTimes (dividend / (divisor <<< count) + 1) divisor
    (normal.imp_right Nat.le_succ_of_le) few
  have even := octavesEven count (dividend / (divisor <<< count))
  unfold divideToEven at different ⊢
  dsimp only at different ⊢
  generalize dividend / (divisor <<< count) = quotient at *
  generalize dividend % (divisor <<< count) = rest at *
  generalize divisor <<< count = width at *
  rw [Nat.add_mul, Nat.one_mul] at upper
  rw [← Nat.add_assoc] at upper
  refine preferredNeighbour (count * octave + quotient) positive ?_ ?_ ?_ different
  · omega
  · omega
  · unfold Preferred distance
    rw [lower, upper]
    split <;> omega

theorem nearestRankPreferred {dividend divisor other : Nat} (positive : 0 < divisor)
    (bounded : other ≤ infinity) (different : other ≠ nearestRank dividend divisor) :
    Preferred dividend divisor (nearestRank dividend divisor) other := by
  unfold nearestRank at different ⊢
  dsimp only at different ⊢
  generalize reached : Nat.log2 (dividend / divisor) - 52 = count at different ⊢
  have all {rank : Nat} (apart : rank ≠ _) := divideToEvenPreferred positive reached.symm apart
  generalize count * octave + divideToEven dividend (divisor <<< count) = rank at *
  by_cases capped : infinity < rank
  · rw [Nat.min_eq_right (Nat.le_of_lt capped)] at different ⊢
    exact preferredOfGreatest positive capped (all (Nat.ne_of_lt capped)) (by omega)
  · rw [Nat.min_eq_left (Nat.le_of_not_lt capped)] at different ⊢
    exact all different

/- Were the rank of the greater magnitude the lower one, both ranks would be equally near to both
magnitudes and even, and the ranks between them nearer. -/
theorem nearestRankMonotone {first second divisor : Nat} (positive : 0 < divisor)
    (ordered : first ≤ second) : nearestRank first divisor ≤ nearestRank second divisor := by
  refine Nat.le_of_not_lt fun crossed => ?_
  have bounded := nearestRankLe first divisor
  have lower := nearestRankPreferred positive (nearestRankLe second divisor) (Nat.ne_of_lt crossed)
  have upper := nearestRankPreferred positive bounded (Nat.ne_of_gt crossed)
  have between (inside : nearestRank second divisor + 1 < nearestRank first divisor) :=
    nearestRankPreferred positive (Nat.le_trans (Nat.le_of_lt inside) bounded)
      (Nat.ne_of_lt inside)
  generalize nearestRank first divisor = high at *
  generalize nearestRank second divisor = low at *
  have step : units low * divisor < units (low + 1) * divisor :=
    scaledIncrease positive (Nat.lt_succ_self low)
  have rise : low + 1 < high → units (low + 1) * divisor < units high * divisor :=
    fun inside => scaledIncrease positive inside
  have apart : units low * divisor < units high * divisor := scaledIncrease positive crossed
  unfold Preferred distance at *
  by_cases inside : low + 1 < high
  · have middle := between inside
    have more := rise inside
    omega
  · omega

end RecordQuery.Binary64
