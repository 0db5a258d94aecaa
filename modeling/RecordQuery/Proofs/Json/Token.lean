import RecordQuery.Json.Token
import RecordQuery.Proofs.Json.Number
import RecordQuery.Proofs.Json.Quoted

/-! Tokens written and read back. The text of a number or a word is one run, so that it is read
as it was written only if what follows does not go on with it; marks and quoted strings end by
themselves. -/
namespace RecordQuery

def Numeric (text : List Char) : Prop := ∀ c ∈ text, Json.Token.isNumeric c

theorem Numeric.append {front back : List Char} (first : Numeric front) (second : Numeric back) :
    Numeric (front ++ back) :=
  fun c member => (List.mem_append.mp member).elim (first c) (second c)

theorem Numeric.cons {c : Char} {text : List Char} (first : Json.Token.isNumeric c)
    (others : Numeric text) : Numeric (c :: text) :=
  List.forall_mem_cons.mpr ⟨first, others⟩

theorem Numeric.ofDigits {text : List Char} (digits : ∀ c ∈ text, c.isDigit) : Numeric text := by
  intro c member
  simp [Json.Token.isNumeric, digits c member]

theorem Decimal.numericDigits (n : Nat) : Numeric (digits n) :=
  .ofDigits fun _ member => isDigitOfMem member

theorem Decimal.exponentNumeric (power : Int) : Numeric (exponentText power) := by
  unfold exponentText
  split
  · exact .cons rfl (.cons rfl (numericDigits _))
  · exact .cons rfl (.cons rfl (numericDigits _))

theorem Decimal.Form.numeric {layout : Layout} (ending : Numeric layout.wholeEnd)
    {text : List Char} {d : Decimal} (form : Form layout text d) : Numeric text := by
  cases form with
  | whole leading => exact .append (.ofDigits leading.digits) ending
  | point leading digits nonempty =>
    exact .append (.ofDigits leading.digits) (.cons rfl (.ofDigits digits))
  | exponent leading => exact .append (.ofDigits leading.digits) (exponentNumeric _)
  | pointExponent leading digits nonempty =>
    exact .append (.ofDigits leading.digits)
      (.cons rfl (.append (.ofDigits digits) (exponentNumeric _)))

theorem Number.signNumeric (negative : Bool) : Numeric (sign negative) := by
  cases negative with
  | false => exact nofun
  | true => exact .cons rfl nofun

theorem Number.layoutNumeric : Numeric layout.wholeEnd :=
  .cons rfl (.cons rfl nofun)

theorem Number.charsNumeric {number : Number} (storable : number.Storable) :
    Numeric number.chars := by
  cases number with
  | integer n =>
    rw [integerText]
    exact .append (signNumeric _) (Decimal.numericDigits _)
  | double x =>
    obtain ⟨text, d, written, form, _⟩ := doubleText storable
    rw [written]
    exact .append (signNumeric _) (form.numeric layoutNumeric)

theorem Number.charsNonempty {number : Number} (storable : number.Storable) :
    number.chars ≠ [] := by
  cases number with
  | integer n =>
    rw [integerText]
    exact List.append_ne_nil_of_right_ne_nil _ (Decimal.digitsNeNil _)
  | double x =>
    obtain ⟨text, d, written, form, _⟩ := doubleText storable
    obtain ⟨c, rest, rfl, _⟩ := form.head
    rw [written]
    exact List.append_ne_nil_of_right_ne_nil _ (List.cons_ne_nil c rest)

namespace Json.Token

variable {reader : DoubleReader}

def Storable : Token → Prop
  | number value => value.Storable
  | _ => True

def Restored (reader : DoubleReader) : Token → Prop
  | number value => value.Restored reader
  | _ => True

def isRun : Token → Bool
  | null | bool _ | number _ => true
  | _ => false

def Ends (rest : List Char) : Prop :=
  ∀ c, rest.head? = some c → isNumeric c = false ∧ c.isAlpha = false

theorem markOfNumeric {c : Char} (numeric : isNumeric c) :
    ofMark? c = none ∧ c ≠ '"' ∧ isSpace c = false := by
  have apart (d : Char) (other : isNumeric d = false) : c ≠ d := by
    rintro rfl
    rw [numeric] at other
    contradiction
  refine ⟨?_, apart '"' rfl, ?_⟩
  · simp [ofMark?, apart '[' rfl, apart ']' rfl, apart '\x7b' rfl, apart '\x7d' rfl,
      apart ',' rfl, apart ':' rfl]
  · simp [isSpace, apart ' ' rfl, apart '\t' rfl, apart '\n' rfl, apart '\r' rfl]

theorem nextNumber {number : Number} (storable : number.Storable)
    (restored : number.Restored reader) {rest : List Char} (ends : Ends rest) :
    ∃ c tail, number.chars = c :: tail ∧ isSpace c = false ∧
      next? reader c (tail ++ rest) = some (.number number, rest) := by
  obtain ⟨c, tail, same⟩ := List.exists_cons_of_ne_nil (Number.charsNonempty storable)
  have numeric := Number.charsNumeric storable
  rw [same] at numeric
  obtain ⟨first, others⟩ := List.forall_mem_cons.mp numeric
  obtain ⟨noMark, noQuote, noSpace⟩ := markOfNumeric first
  obtain ⟨inside, after⟩ := Text.runAt others fun d head => (ends d head).1
  refine ⟨c, tail, same, noSpace, ?_⟩
  have read := Number.readChars storable restored
  rw [same] at read
  simp [next?, noMark, noQuote, first, inside, after, read]

theorem nextWord {c : Char} {tail : List Char} {token : Token}
    (start : ofMark? c = none ∧ c ≠ '"' ∧ isNumeric c = false) (letters : tail.all Char.isAlpha)
    (word : ofWord? (c :: tail) = some token) {rest : List Char} (ends : Ends rest) :
    next? reader c (tail ++ rest) = some (token, rest) := by
  obtain ⟨noMark, noQuote, noNumber⟩ := start
  obtain ⟨inside, after⟩ := Text.runAt (List.all_eq_true.mp letters) fun d head => (ends d head).2
  simp [next?, noMark, noQuote, noNumber, inside, after, word]

theorem nextOf {token : Token} (storable : token.Storable) (restored : token.Restored reader)
    {rest : List Char} (ends : token.isRun → Ends rest) :
    ∃ c tail, token.chars = c :: tail ∧ isSpace c = false ∧
      next? reader c (tail ++ rest) = some (token, rest) := by
  cases token with
  | number value => exact nextNumber storable restored (ends rfl)
  | string value =>
    refine ⟨_, _, rfl, rfl, ?_⟩
    have read := Quoted.readEscape value.toList rest
    simp [next?, ofMark?, read]
  | null => exact ⟨_, _, rfl, rfl, nextWord (by decide) rfl rfl (ends rfl)⟩
  | bool value =>
    cases value with
    | false => exact ⟨_, _, rfl, rfl, nextWord (by decide) rfl rfl (ends rfl)⟩
    | true => exact ⟨_, _, rfl, rfl, nextWord (by decide) rfl rfl (ends rfl)⟩
  | _ => exact ⟨_, _, rfl, rfl, rfl⟩

end Json.Token

namespace Json

open Token (Ends)

theorem tokensNext {reader : DoubleReader} {token : Token} (storable : token.Storable)
    (restored : token.Restored reader) {rest : List Char} (ends : token.isRun → Ends rest) :
    tokens? reader (token.chars ++ rest) = (tokens? reader rest).map (token :: ·) := by
  obtain ⟨c, tail, same, noSpace, found⟩ := Token.nextOf storable restored ends
  rw [same, List.cons_append, tokens?, if_neg (by simp [noSpace])]
  split
  · rename_i none
    rw [found] at none
    contradiction
  · rename_i other after again
    rw [found] at again
    cases Option.some.inj again
    rfl

end Json
end RecordQuery
