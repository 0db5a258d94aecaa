import RecordQuery.Json.Token
import RecordQuery.Text.Utf8

/-! Writing JSON text. Compact text is the tokens of a value with nothing between them; pretty
text puts every item and field on a line of its own, two spaces deeper than what holds it. -/
namespace RecordQuery.Json

mutual

def tokens : Json → List Token
  | .null => [.null]
  | .bool value => [.bool value]
  | .number value => [.number value]
  | .string value => [.string value]
  | .array [] => [.openArray, .closeArray]
  | .array (item :: rest) =>
    .openArray :: (tokens item ++ (tokensOfItems rest ++ [.closeArray]))
  | .object [] => [.openObject, .closeObject]
  | .object ((key, value) :: rest) =>
    .openObject :: .string key :: .colon ::
      (tokens value ++ (tokensOfFields rest ++ [.closeObject]))

def tokensOfItems : List Json → List Token
  | [] => []
  | item :: rest => .comma :: (tokens item ++ tokensOfItems rest)

def tokensOfFields : List (String × Json) → List Token
  | [] => []
  | (key, value) :: rest =>
    .comma :: .string key :: .colon :: (tokens value ++ tokensOfFields rest)

end

def compact (value : Json) : List Char :=
  (tokens value).flatMap Token.chars

def bytes (value : Json) : Bytes :=
  Text.encode (String.ofList value.compact)

def lineBreak (depth : Nat) : List Char :=
  '\n' :: List.replicate (2 * depth) ' '

def prettyKey (key : String) : List Char :=
  (Token.string key).chars ++ [':', ' ']

mutual

def pretty (depth : Nat) : Json → List Char
  | .null => Token.null.chars
  | .bool value => (Token.bool value).chars
  | .number value => (Token.number value).chars
  | .string value => (Token.string value).chars
  | .array [] => ['[', ']']
  | .array (item :: rest) =>
    '[' :: (lineBreak (depth + 1) ++ pretty (depth + 1) item ++ prettyItems (depth + 1) rest ++
      lineBreak depth ++ [']'])
  | .object [] => ['\x7b', '\x7d']
  | .object ((key, value) :: rest) =>
    '\x7b' :: (lineBreak (depth + 1) ++ prettyKey key ++ pretty (depth + 1) value ++
      prettyFields (depth + 1) rest ++ lineBreak depth ++ ['\x7d'])

def prettyItems (depth : Nat) : List Json → List Char
  | [] => []
  | item :: rest => ',' :: (lineBreak depth ++ pretty depth item ++ prettyItems depth rest)

def prettyFields (depth : Nat) : List (String × Json) → List Char
  | [] => []
  | (key, value) :: rest =>
    ',' :: (lineBreak depth ++ prettyKey key ++ pretty depth value ++ prettyFields depth rest)

end

end RecordQuery.Json
