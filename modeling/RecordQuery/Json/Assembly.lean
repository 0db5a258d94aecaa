import RecordQuery.Json.Token
import RecordQuery.Text.Utf8

/-! Reading JSON text. Tokens are taken one by one; the values that are still open lie on a
stack, innermost first, and what may come next is known at every point. At most `maxDepth`
arrays and objects may be open at once. -/
namespace RecordQuery.Json

def maxDepth : Nat := 127

inductive Open where
  | array (items : List Json)
  | object (fields : Fields)
  | field (fields : Fields) (key : String)

inductive Expected where
  | value
  | firstItem
  | firstKey
  | key
  | colon
  | separator

inductive Progress where
  | within (stack : List Open) (expected : Expected)
  | done (value : Json)

namespace Progress

def start : Progress := within [] .value

def complete (value : Json) : List Open → Option Progress
  | [] => some (done value)
  | .array items :: outer => some (within (.array (value :: items) :: outer) .separator)
  | .field fields key :: outer =>
    some (within (.object (Fields.insert key value fields) :: outer) .separator)
  | .object _ :: _ => none

def descend (inner : Open) (expected : Expected) (stack : List Open) : Option Progress :=
  if stack.length < maxDepth then some (within (inner :: stack) expected) else none

def value (stack : List Open) : Token → Option Progress
  | .null => complete .null stack
  | .bool b => complete (.bool b) stack
  | .number n => complete (.number n) stack
  | .string s => complete (.string s) stack
  | .openArray => descend (.array []) .firstItem stack
  | .openObject => descend (.object []) .firstKey stack
  | _ => none

def close : Token → List Open → Option Progress
  | .closeArray, .array items :: outer => complete (.array items.reverse) outer
  | .closeObject, .object fields :: outer => complete (.object fields) outer
  | _, _ => none

def key : Token → List Open → Option Progress
  | .string key, .object fields :: outer => some (within (.field fields key :: outer) .colon)
  | _, _ => none

def separator : Token → List Open → Option Progress
  | .comma, .array items :: outer => some (within (.array items :: outer) .value)
  | .comma, .object fields :: outer => some (within (.object fields :: outer) .key)
  | token, stack => close token stack

def step : Progress → Token → Option Progress
  | done _, _ => none
  | within stack .value, token => value stack token
  | within stack .firstItem, .closeArray => close .closeArray stack
  | within stack .firstItem, token => value stack token
  | within stack .firstKey, .closeObject => close .closeObject stack
  | within stack .firstKey, token => key token stack
  | within stack .key, token => key token stack
  | within stack .colon, .colon => some (within stack .value)
  | within _ .colon, _ => none
  | within stack .separator, token => separator token stack

def value? : Progress → Option Json
  | done value => some value
  | within _ _ => none

end Progress

def ofTokens? (tokens : List Token) : Option Json :=
  (tokens.foldlM Progress.step Progress.start).bind Progress.value?

def ofText? (reader : DoubleReader) (text : List Char) : Option Json :=
  (tokens? reader text).bind ofTokens?

def ofBytes? (reader : DoubleReader) (bytes : Bytes) : Option Json :=
  (Text.decode? bytes).bind fun text => ofText? reader text.toList

def items? : Json → Option (List Json)
  | .array items => some items
  | _ => none

def readArray? (reader : DoubleReader) (bytes : Bytes) : Option (List Json) :=
  (ofBytes? reader bytes).bind items?

end RecordQuery.Json
