import RecordQuery.Text.Order
import RecordQuery.Text.Utf8

/-! The order of texts and that of their bytes. A greater code point has greater bytes, which differ
before either of the two characters ends; hence texts in UTF-8, compared byte by byte, are in the
order of their code points. -/
namespace RecordQuery.Text

theorem orderLess {s t : List Char} : order s t = .lt ↔ s < t := by
  fun_induction order s t with
  | case1 => simp
  | case2 => simp
  | case3 => simp
  | case4 c s d t less =>
    have below : c < d := less
    simp [List.cons_lt_cons_iff, below]
  | case5 c s d t notLess greater =>
    have notBelow : ¬ c < d := notLess
    have different : c ≠ d := by
      rintro rfl
      exact Nat.lt_irrefl _ greater
    simp [List.cons_lt_cons_iff, notBelow, different]
  | case6 c s d t notLess notGreater ih =>
    have same : c = d := Char.toNat_inj.mp (by omega)
    subst same
    simpa [List.cons_lt_cons_iff] using ih

theorem charBound (c : Char) : c.toNat < 0x110000 := by
  rcases c.valid with low | ⟨_, high⟩
  · exact Nat.lt_trans low (by decide)
  · exact high

def marked (mark digits : Nat) : UInt8 := .ofNat (digits + mark)

theorem markedLess {mark digits other next : Nat} (one : digits + mark < 256)
    (two : next + other < 256) :
    marked mark digits < marked other next ↔ digits + mark < next + other := by
  rw [marked, marked, UInt8.lt_iff_toNat_lt, UInt8.toNat_ofNat_of_lt' one,
    UInt8.toNat_ofNat_of_lt' two]

theorem markedSame {mark digits next : Nat} (one : digits + mark < 256) (two : next + mark < 256) :
    marked mark digits = marked mark next ↔ digits = next := by
  rw [marked, marked, ← UInt8.toNat_inj, UInt8.toNat_ofNat_of_lt' one,
    UInt8.toNat_ofNat_of_lt' two, Nat.add_right_cancel_iff]

inductive CharBytes : Nat → List UInt8 → Prop where
  | one {a} (bound : a < 128) : CharBytes a [marked 0 a]
  | two {a b} (bounds : a < 32 ∧ b < 64) (least : 128 ≤ a * 64 + b) :
      CharBytes (a * 64 + b) [marked 192 a, marked 128 b]
  | three {a b c} (bounds : a < 16 ∧ b < 64 ∧ c < 64) (least : 2048 ≤ (a * 64 + b) * 64 + c) :
      CharBytes ((a * 64 + b) * 64 + c) [marked 224 a, marked 128 b, marked 128 c]
  | four {a b c d} (bounds : a < 8 ∧ b < 64 ∧ c < 64 ∧ d < 64)
      (least : 65536 ≤ ((a * 64 + b) * 64 + c) * 64 + d) :
      CharBytes (((a * 64 + b) * 64 + c) * 64 + d)
        [marked 240 a, marked 128 b, marked 128 c, marked 128 d]

theorem charBytes (c : Char) : CharBytes c.toNat (String.utf8EncodeChar c) := by
  have bound := charBound c
  by_cases one : c.toNat ≤ 0x7F
  · have bytes : String.utf8EncodeChar c = [marked 0 c.toNat] := if_pos one
    rw [bytes]
    exact .one (by omega)
  by_cases two : c.toNat ≤ 0x7FF
  · have bytes : String.utf8EncodeChar c =
        [marked 192 (c.toNat / 64 % 32), marked 128 (c.toNat % 64)] :=
      (if_neg one).trans (if_pos two)
    have whole : c.toNat / 64 % 32 * 64 + c.toNat % 64 = c.toNat := by omega
    have form := CharBytes.two (a := c.toNat / 64 % 32) (b := c.toNat % 64) (by omega) (by omega)
    rwa [whole, ← bytes] at form
  by_cases three : c.toNat ≤ 0xFFFF
  · have bytes : String.utf8EncodeChar c =
        [marked 224 (c.toNat / 4096 % 16), marked 128 (c.toNat / 64 % 64),
          marked 128 (c.toNat % 64)] :=
      (if_neg one).trans ((if_neg two).trans (if_pos three))
    have whole : (c.toNat / 4096 % 16 * 64 + c.toNat / 64 % 64) * 64 + c.toNat % 64 = c.toNat := by
      omega
    have form := CharBytes.three (a := c.toNat / 4096 % 16) (b := c.toNat / 64 % 64)
      (c := c.toNat % 64) (by omega) (by omega)
    rwa [whole, ← bytes] at form
  · have bytes : String.utf8EncodeChar c =
        [marked 240 (c.toNat / 262144 % 8), marked 128 (c.toNat / 4096 % 64),
          marked 128 (c.toNat / 64 % 64), marked 128 (c.toNat % 64)] :=
      (if_neg one).trans ((if_neg two).trans (if_neg three))
    have whole : ((c.toNat / 262144 % 8 * 64 + c.toNat / 4096 % 64) * 64 +
        c.toNat / 64 % 64) * 64 + c.toNat % 64 = c.toNat := by
      omega
    have form := CharBytes.four (a := c.toNat / 262144 % 8) (b := c.toNat / 4096 % 64)
      (c := c.toNat / 64 % 64) (d := c.toNat % 64) (by omega) (by omega)
    rwa [whole, ← bytes] at form

theorem CharBytes.less {n m : Nat} {first second : List UInt8} (left : CharBytes n first)
    (right : CharBytes m second) (less : n < m) (s t : List UInt8) : first ++ s < second ++ t := by
  cases left <;> cases right <;>
    simp (disch := omega) only [List.cons_append, List.cons_lt_cons_iff, markedLess, markedSame] <;>
    omega

theorem CharBytes.first {n : Nat} {bytes : List UInt8} (form : CharBytes n bytes) :
    ∃ lead rest, bytes = lead :: rest := by
  cases form <;> exact ⟨_, _, rfl⟩

theorem bytesOfChars (text : String) :
    encode text = text.toList.flatMap String.utf8EncodeChar := by
  rw [encode, ← String.utf8Encode_toList, List.utf8Encode]
  simp

theorem orderBytes {s t : List Char} (less : order s t = .lt) :
    s.flatMap String.utf8EncodeChar < t.flatMap String.utf8EncodeChar := by
  fun_induction order s t with
  | case1 => contradiction
  | case2 c t =>
    obtain ⟨lead, rest, bytes⟩ := (charBytes c).first
    rw [List.flatMap_nil, List.flatMap_cons, bytes, List.cons_append]
    exact List.nil_lt_cons lead _
  | case3 => contradiction
  | case4 c s d t below =>
    rw [List.flatMap_cons, List.flatMap_cons]
    exact (charBytes c).less (charBytes d) below _ _
  | case5 => contradiction
  | case6 c s d t notLess notGreater ih =>
    have same : c = d := Char.toNat_inj.mp (by omega)
    rw [List.flatMap_cons, List.flatMap_cons, same]
    exact List.append_left_lt (ih less)

theorem encodeLess {s t : String} : encode s < encode t ↔ order s.toList t.toList = .lt := by
  rw [bytesOfChars, bytesOfChars]
  constructor
  · intro less
    cases found : order s.toList t.toList with
    | lt => rfl
    | eq =>
      rw [orderEqIff.mp found] at less
      exact absurd less (List.lt_irrefl _)
    | gt =>
      have swapped := orderSwap s.toList t.toList
      rw [found] at swapped
      exact absurd less (List.lt_asymm (orderBytes swapped.symm))
  · exact orderBytes

end RecordQuery.Text
