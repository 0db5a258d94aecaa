import RecordQuery.Json.Number
import RecordQuery.Proofs.Decimal.Literal

/-! Numbers written and read back. An integer that fits comes back as that integer, and a finite
double that the reader restores as that double, the sign of zero included. The nearest reader
restores every finite double. -/
namespace RecordQuery

namespace Number

open Decimal (Whole splitDigitsAt exponent? value)

theorem isWholePartOf {text : List Char} (leading : Whole text) : isWholePart text := by
  rcases leading with rfl | significant
  · rfl
  · obtain ⟨c, rest, rfl, nonzero⟩ := significant.head
    unfold isWholePart
    split <;> simp_all

def sign (negative : Bool) : List Char := if negative then ['-'] else []

theorem splitMinusSign (negative : Bool) {body : List Char} (unsigned : body.head? ≠ some '-') :
    splitMinus (sign negative ++ body) = (negative, body) := by
  cases negative with
  | true => rfl
  | false =>
    rw [sign, if_neg (by decide), List.nil_append]
    unfold splitMinus
    split
    · exact absurd rfl unsigned
    · rfl

theorem splitMinusWhole (negative : Bool) {whole : List Char} (leading : Whole whole)
    (rest : List Char) :
    splitMinus (sign negative ++ (whole ++ rest)) = (negative, whole ++ rest) := by
  obtain ⟨c, tail, rfl, digit⟩ := leading.head
  apply splitMinusSign
  intro minus
  cases Option.some.inj minus
  contradiction

variable {reader : DoubleReader} {negative : Bool} {whole : List Char}

theorem readWhole (leading : Whole whole) {n : Int}
    (integer : integer? negative (value whole) = some n) :
    read? reader (sign negative ++ whole) = some (.integer n) := by
  have cut := splitMinusWhole negative leading []
  rw [List.append_nil] at cut
  simp [read?, cut, Decimal.splitDigitsAll leading.digits, isWholePartOf leading, integer]

theorem readPoint (leading : Whole whole) {fraction tail : List Char} {exponent : Int}
    (digits : ∀ c ∈ fraction, c.isDigit) (nonempty : fraction ≠ [])
    (ending : exponent? tail = some exponent)
    (stop : ∀ c, tail.head? = some c → c.isDigit = false) :
    read? reader (sign negative ++ (whole ++ '.' :: (fraction ++ tail))) =
      reader.number? (sign negative ++ (whole ++ '.' :: (fraction ++ tail))) := by
  have back := splitDigitsAt digits stop
  simp [read?, splitMinusWhole negative leading, leading.beforePoint, back, isWholePartOf leading,
    nonempty, ending]

theorem readPointAlone (leading : Whole whole) {fraction : List Char}
    (digits : ∀ c ∈ fraction, c.isDigit) (nonempty : fraction ≠ []) :
    read? reader (sign negative ++ (whole ++ '.' :: fraction)) =
      reader.number? (sign negative ++ (whole ++ '.' :: fraction)) := by
  have read : read? reader (sign negative ++ (whole ++ '.' :: (fraction ++ []))) =
      reader.number? (sign negative ++ (whole ++ '.' :: (fraction ++ []))) :=
    readPoint leading digits nonempty rfl nofun
  rwa [List.append_nil] at read

theorem readExponent (leading : Whole whole) (power : Int) :
    read? reader (sign negative ++ (whole ++ Decimal.exponentText power)) =
      reader.number? (sign negative ++ (whole ++ Decimal.exponentText power)) := by
  have ending := Decimal.exponentOfText power
  simp only [read?, splitMinusWhole negative leading, leading.beforeExponent,
    isWholePartOf leading]
  unfold Decimal.exponentText at ending ⊢
  simp [ending]

theorem readForm {text : List Char} {d : Decimal} (form : Decimal.Form layout text d) :
    read? reader (sign negative ++ text) = reader.number? (sign negative ++ text) := by
  cases form with
  | whole leading => exact readPointAlone leading Decimal.zeroDigit (List.cons_ne_nil _ _)
  | point leading digits nonempty => exact readPointAlone leading digits nonempty
  | exponent leading => exact readExponent leading _
  | pointExponent leading digits nonempty =>
    exact readPoint leading digits nonempty (Decimal.exponentOfText _) (Decimal.exponentStop _)

theorem integerText (n : Int) :
    chars (.integer n) = sign (decide (n < 0)) ++ Decimal.digits n.natAbs := by
  simp [chars, integerChars, sign]

theorem doubleText {x : Binary64} (finite : x.isFinite) :
    ∃ text d, chars (.double x) = sign x.negative ++ text ∧ Decimal.Form layout text d ∧
      d.rank = x.rank :=
  Decimal.finiteText layout finite

theorem readDouble {x : Binary64} (finite : x.isFinite) (restored : reader.Restores x) :
    read? reader (chars (.double x)) = some (.double x) := by
  obtain ⟨text, d, written, form, _⟩ := doubleText finite
  have number : reader.number? (chars (.double x)) = some (.double x) := by
    rw [DoubleReader.number?, restored, Option.map_some]
  rw [written] at number ⊢
  rw [readForm form, number]

def Storable : Number → Prop
  | .integer n => -minInteger ≤ n ∧ n ≤ maxInteger
  | .double x => x.isFinite

instance : (number : Number) → Decidable number.Storable
  | .integer n => inferInstanceAs (Decidable (-minInteger ≤ n ∧ n ≤ maxInteger))
  | .double x => inferInstanceAs (Decidable (x.isFinite = true))

theorem wholeDigits (n : Nat) : Whole (Decimal.digits n) := by
  rcases Nat.eq_zero_or_pos n with rfl | positive
  · exact .inl rfl
  · obtain ⟨c, rest, same, nonzero⟩ := Decimal.digitsHead positive
    exact .inr ⟨fun d member => Decimal.isDigitOfMem (n := n) member, c, rest, same, nonzero⟩

theorem readInteger {n : Int} (least : -minInteger ≤ n) (most : n ≤ maxInteger) :
    read? reader (chars (.integer n)) = some (.integer n) := by
  rw [integerText]
  apply readWhole (wholeDigits _)
  rw [Decimal.valueDigits, integer?]
  split
  · rename_i negative
    have below : n < 0 := of_decide_eq_true negative
    rw [if_pos (by omega)]
    congr 1
    omega
  · rename_i natural
    have above : ¬ n < 0 := fun below => natural (decide_eq_true below)
    rw [if_pos (by omega)]
    congr 1
    omega

def Restored (reader : DoubleReader) : Number → Prop
  | .integer _ => True
  | .double x => reader.Restores x

theorem readChars {number : Number} (storable : number.Storable)
    (restored : number.Restored reader) : read? reader number.chars = some number := by
  cases number with
  | integer n => exact readInteger storable.1 storable.2
  | double x => exact readDouble storable restored

example : chars (.double (Binary64.ofBits 0x4341C37937E08000)) = "1e+16".toList := by
  decide +kernel

end Number

theorem DoubleReader.nearestRestores {x : Binary64} (finite : x.isFinite) : nearest.Restores x :=
  Option.filter_eq_some_iff.mpr ⟨Decimal.literalOfChars (.inr rfl) finite, finite⟩

end RecordQuery
