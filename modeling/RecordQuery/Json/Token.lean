import RecordQuery.Json.Number
import RecordQuery.Json.Quoted

/-! The tokens of JSON text: brackets, separators, and the values that are not made of others.
Between tokens only spaces, tabs, line feeds and carriage returns may stand. A number or a word
is the longest run of its characters. -/
namespace RecordQuery.Json

inductive Token where
  | openArray
  | closeArray
  | openObject
  | closeObject
  | comma
  | colon
  | null
  | bool (value : Bool)
  | number (value : Number)
  | string (value : String)
  deriving DecidableEq, Repr

namespace Token

def chars : Token → List Char
  | openArray => ['[']
  | closeArray => [']']
  | openObject => ['\x7b']
  | closeObject => ['\x7d']
  | comma => [',']
  | colon => [':']
  | null => "null".toList
  | bool true => "true".toList
  | bool false => "false".toList
  | number value => value.chars
  | string value => '"' :: (Quoted.escape value.toList ++ ['"'])

def isSpace (c : Char) : Bool :=
  c == ' ' || c == '\t' || c == '\n' || c == '\r'

def isNumeric (c : Char) : Bool :=
  c.isDigit || c == '-' || c == '+' || c == '.' || c == 'e' || c == 'E'

def ofMark? (c : Char) : Option Token :=
  if c = '[' then some openArray
  else if c = ']' then some closeArray
  else if c = '\x7b' then some openObject
  else if c = '\x7d' then some closeObject
  else if c = ',' then some comma
  else if c = ':' then some colon
  else none

def ofWord? (word : List Char) : Option Token :=
  if word = "null".toList then some null
  else if word = "true".toList then some (bool true)
  else if word = "false".toList then some (bool false)
  else none

def next? (reader : DoubleReader) (c : Char) (rest : List Char) : Option (Token × List Char) :=
  match ofMark? c with
  | some mark => some (mark, rest)
  | none =>
    if c = '"' then
      (Quoted.read? rest).map fun result => (string (String.ofList result.1), result.2)
    else if isNumeric c then
      (Number.read? reader (c :: rest.takeWhile isNumeric)).map fun value =>
        (number value, rest.dropWhile isNumeric)
    else
      (ofWord? (c :: rest.takeWhile Char.isAlpha)).map fun word =>
        (word, rest.dropWhile Char.isAlpha)

end Token

theorem Quoted.restOfCons {read : Option (List Char × List Char)} {c : Char}
    {body rest : List Char}
    (found : read.map (fun result => (c :: result.1, result.2)) = some (body, rest)) :
    ∃ inner, read = some (inner, rest) := by
  obtain ⟨result, same, pair⟩ := Option.map_eq_some_iff.mp found
  cases pair
  exact ⟨result.1, same⟩

theorem Quoted.readShorter {text body rest : List Char}
    (found : Quoted.read? text = some (body, rest)) : rest.length ≤ text.length := by
  fun_induction Quoted.read? text generalizing body rest with
  | case2 tail =>
    cases found
    exact Nat.le_succ _
  | case5 _ _ _ _ _ _ _ _ _ _ _ _ _ _ _ ih =>
    obtain ⟨_, read⟩ := restOfCons found
    have shorter := ih read
    simp only [List.length_cons]
    omega
  | case9 _ _ _ _ _ _ _ _ _ ih =>
    obtain ⟨_, read⟩ := restOfCons found
    have shorter := ih read
    simp only [List.length_cons]
    omega
  | case11 _ _ _ _ _ ih =>
    obtain ⟨_, read⟩ := restOfCons found
    have shorter := ih read
    simp only [List.length_cons]
    omega
  | case13 _ _ _ _ _ _ ih =>
    obtain ⟨_, read⟩ := restOfCons found
    have shorter := ih read
    simp only [List.length_cons]
    omega
  | _ => contradiction

theorem Token.nextShorter {reader : DoubleReader} {c : Char} {rest after : List Char}
    {token : Token} (found : Token.next? reader c rest = some (token, after)) :
    after.length ≤ rest.length := by
  have dropped (p : Char → Bool) : (rest.dropWhile p).length ≤ rest.length :=
    (List.dropWhile_suffix p).length_le
  unfold Token.next? at found
  split at found
  · cases Option.some.inj found
    exact Nat.le_refl _
  split at found
  · obtain ⟨result, read, same⟩ := Option.map_eq_some_iff.mp found
    cases same
    exact Quoted.readShorter read
  split at found
  · obtain ⟨_, _, same⟩ := Option.map_eq_some_iff.mp found
    cases same
    exact dropped _
  · obtain ⟨_, _, same⟩ := Option.map_eq_some_iff.mp found
    cases same
    exact dropped _

def tokens? (reader : DoubleReader) (text : List Char) : Option (List Token) :=
  match text with
  | [] => some []
  | c :: rest =>
    if Token.isSpace c then tokens? reader rest
    else
      match _found : Token.next? reader c rest with
      | none => none
      | some (token, after) => (tokens? reader after).map (token :: ·)
termination_by text.length
decreasing_by
  · simp
  · have := Token.nextShorter _found
    simp only [List.length_cons]
    omega

end RecordQuery.Json
