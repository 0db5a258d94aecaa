import RecordQuery.Decimal.Literal
import RecordQuery.Proofs.Decimal.Layout
import RecordQuery.Proofs.Text.Words

/-! Reading what a layout writes. A run of digits is taken as a whole, and a layout that ends a
whole number with its last digit writes each finite number as a literal of that number, the sign of
zero included. -/
namespace RecordQuery

namespace Decimal

theorem splitDigitsAt {text rest : List Char} (digits : ∀ c ∈ text, c.isDigit)
    (stop : ∀ c, rest.head? = some c → c.isDigit = false) :
    splitDigits (text ++ rest) = (text, rest) := by
  obtain ⟨taken, left⟩ := Text.runAt digits stop
  rw [splitDigits, taken, left]

theorem splitDigitsAll {text : List Char} (digits : ∀ c ∈ text, c.isDigit) :
    splitDigits text = (text, []) := by
  have all : splitDigits (text ++ []) = (text, []) := splitDigitsAt digits nofun
  rwa [List.append_nil] at all

theorem digitsAlone (n : Nat) : splitDigits (digits n) = (digits n, []) :=
  splitDigitsAll fun _ member => isDigitOfMem member

theorem exponentOfText (power : Int) : exponent? (exponentText power) = some power := by
  by_cases negative : power < 0
  · simp only [exponentText, negative, exponent?, splitSign, digitsAlone, digitsNeNil, valueDigits,
      if_true, true_or, false_or, ne_eq, not_true_eq_false, if_false, Option.some.injEq]
    omega
  · simp only [exponentText, negative, exponent?, splitSign, digitsAlone, digitsNeNil, valueDigits,
      if_true, true_or, false_or, ne_eq, not_true_eq_false, if_false, Option.some.injEq,
      Bool.false_eq_true]
    omega

theorem zeroDigit : ∀ c ∈ ['0'], c.isDigit := List.forall_mem_singleton.mpr rfl

theorem Whole.digits {text : List Char} (leading : Whole text) : ∀ c ∈ text, c.isDigit := by
  rcases leading with rfl | significant
  · exact zeroDigit
  · exact significant.digits

theorem Whole.head {text : List Char} (leading : Whole text) :
    ∃ c rest, text = c :: rest ∧ c.isDigit := by
  rcases leading with rfl | significant
  · exact ⟨'0', [], rfl, rfl⟩
  · obtain ⟨c, rest, rfl, _⟩ := significant.head
    exact ⟨c, rest, rfl, significant.digits c List.mem_cons_self⟩

variable {text whole fraction : List Char}

theorem Whole.beforePoint (leading : Whole whole) (rest : List Char) :
    splitDigits (whole ++ '.' :: rest) = (whole, '.' :: rest) := by
  apply splitDigitsAt leading.digits
  intro c dot
  cases Option.some.inj dot
  rfl

theorem exponentStop (power : Int) :
    ∀ c, (exponentText power).head? = some c → c.isDigit = false := by
  intro c letter
  cases Option.some.inj letter
  rfl

theorem Whole.beforeExponent (leading : Whole whole) (power : Int) :
    splitDigits (whole ++ exponentText power) = (whole, exponentText power) :=
  splitDigitsAt leading.digits (exponentStop power)

theorem magnitudeDigits (nonempty : text ≠ []) (digits : ∀ c ∈ text, c.isDigit) :
    magnitude? text = some (ofParts text [] 0) := by
  simp [magnitude?, splitDigitsAll digits, nonempty, exponent?]

theorem magnitudeWhole (leading : Whole whole) :
    magnitude? whole = some (ofParts whole [] 0) := by
  obtain ⟨c, rest, same, _⟩ := leading.head
  exact magnitudeDigits (by simp [same]) leading.digits

theorem magnitudePoint (leading : Whole whole) {tail : List Char} {exponent : Int}
    (digits : ∀ c ∈ fraction, c.isDigit) (ending : exponent? tail = some exponent)
    (stop : ∀ c, tail.head? = some c → c.isDigit = false) :
    magnitude? (whole ++ '.' :: (fraction ++ tail)) = some (ofParts whole fraction exponent) := by
  obtain ⟨c, rest, same, _⟩ := leading.head
  have nonempty : whole ≠ [] := by simp [same]
  simp [magnitude?, leading.beforePoint, splitDigitsAt digits stop, nonempty, ending]

theorem magnitudeExponent (leading : Whole whole) (power : Int) :
    magnitude? (whole ++ exponentText power) = some (ofParts whole [] power) := by
  obtain ⟨c, rest, same, _⟩ := leading.head
  have nonempty : whole ≠ [] := by simp [same]
  have ending := exponentOfText power
  simp only [magnitude?, leading.beforeExponent]
  unfold exponentText at ending ⊢
  simp [nonempty, ending]

theorem magnitudePointAlone (leading : Whole whole) (digits : ∀ c ∈ fraction, c.isDigit) :
    magnitude? (whole ++ '.' :: fraction) = some (ofParts whole fraction 0) := by
  have read : magnitude? (whole ++ '.' :: (fraction ++ [])) = some (ofParts whole fraction 0) :=
    magnitudePoint leading digits rfl nofun
  rwa [List.append_nil] at read

def Layout.Plain (layout : Layout) : Prop := layout.wholeEnd = [] ∨ layout.wholeEnd = ['.', '0']

theorem magnitudeOfForm {layout : Layout} (plain : layout.Plain) {d : Decimal}
    (form : Form layout text d) : ∃ other, magnitude? text = some other ∧ other.rank = d.rank := by
  cases form with
  | @whole whole leading =>
    rcases plain with none | zero
    · rw [none, List.append_nil]
      exact ⟨_, magnitudeWhole leading, rfl⟩
    · rw [zero]
      refine ⟨_, magnitudePointAlone leading zeroDigit, ?_⟩
      have shifted := rankShift (value whole) 1 (0 - 1)
      rw [← valueShift] at shifted
      simpa [ofParts] using shifted
  | point leading digits nonempty => exact ⟨_, magnitudePointAlone leading digits, rfl⟩
  | exponent leading => exact ⟨_, magnitudeExponent leading _, rfl⟩
  | pointExponent leading digits nonempty =>
    exact ⟨_, magnitudePoint leading digits (exponentOfText _) (exponentStop _), rfl⟩

theorem Form.head {layout : Layout} {d : Decimal} (form : Form layout text d) :
    ∃ c rest, text = c :: rest ∧ c.isDigit := by
  cases form with
  | whole leading =>
    obtain ⟨c, rest, rfl, digit⟩ := leading.head
    exact ⟨c, _, rfl, digit⟩
  | point leading digits nonempty =>
    obtain ⟨c, rest, rfl, digit⟩ := leading.head
    exact ⟨c, _, rfl, digit⟩
  | exponent leading => exact ⟨_, _, rfl, leading.digits _ List.mem_cons_self⟩
  | pointExponent leading digits nonempty =>
    exact ⟨_, _, rfl, leading.digits _ List.mem_cons_self⟩

theorem lowerOfDigit {c : Char} (digit : c.isDigit) : c.toLower = c := by
  have most : c.val ≤ '9'.val := by
    simp only [Char.isDigit, Bool.and_eq_true, decide_eq_true_eq] at digit
    exact digit.2
  refine dif_neg fun upper => ?_
  exact absurd (Nat.le_trans upper.1 most) (by decide)

inductive Sign : List Char → Bool → Prop where
  | none : Sign [] false
  | plus : Sign ['+'] false
  | minus : Sign ['-'] true

theorem signOf (negative : Bool) : Sign (if negative then ['-'] else []) negative := by
  cases negative with
  | false => exact .none
  | true => exact .minus

theorem literalAt {sign : List Char} {negative : Bool} (signed : Sign sign negative) {c : Char}
    {rest : List Char} (digit : c.isDigit) :
    literal? (sign ++ c :: rest) = (magnitude? (c :: rest)).map (toBinary64 negative) := by
  have other (d : Char) (letter : d.isDigit = false) : c ≠ d := by
    rintro rfl
    rw [digit] at letter
    contradiction
  have cut : splitSign (sign ++ c :: rest) = (negative, c :: rest) := by
    cases signed with
    | none =>
      unfold splitSign
      split <;> simp_all
    | plus => rfl
    | minus => rfl
  have infinity : isInfinityWord (c :: rest) = false := by
    simp [isInfinityWord, lowerOfDigit digit, other 'i' rfl]
  have nan : isNaNWord (c :: rest) = false := by
    simp [isNaNWord, lowerOfDigit digit, other 'n' rfl]
  simp [literal?, cut, infinity, nan]

theorem finiteText (layout : Layout) {x : Binary64} (finite : x.isFinite) :
    ∃ text d, layout.chars x = (if x.negative then ['-'] else []) ++ text ∧
      Form layout text d ∧ d.rank = x.rank := by
  have within : x.rank < Binary64.infinity := by simpa [Binary64.isFinite] using finite
  have number : x.isNaN = false := by
    simp only [Binary64.isNaN, decide_eq_false_iff_not]
    omega
  obtain ⟨d, form, same⟩ := magnitudeForm layout within
  refine ⟨_, d, ?_, form, same⟩
  simp [Layout.chars, number, finite]

theorem toBinary64Rank {x : Binary64} {d : Decimal} (same : d.rank = x.rank) :
    d.toBinary64 x.negative = x := by
  obtain ⟨negative, rank, bound⟩ := x
  cases same
  rfl

theorem literalOfChars {layout : Layout} (plain : layout.Plain) {x : Binary64}
    (finite : x.isFinite) : literal? (layout.chars x) = some x := by
  obtain ⟨text, d, written, form, same⟩ := finiteText layout finite
  obtain ⟨c, rest, rfl, digit⟩ := form.head
  obtain ⟨other, read, equal⟩ := magnitudeOfForm plain form
  rw [written, literalAt (signOf _) digit, read, Option.map_some,
    toBinary64Rank (equal.trans same)]

end Decimal
end RecordQuery
