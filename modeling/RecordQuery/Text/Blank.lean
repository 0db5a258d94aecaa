/-! Blank characters, and the cuts of a text at them. A blank is a character with Unicode's
White_Space property; words, trimmed clauses and the test for an empty query all use this one
class. A text is a list of characters here, so that every cut is a recursion on the text. -/
namespace RecordQuery.Text

/-- The characters of the White_Space property. Neither the information separators from
U+001C to U+001F nor the zero-width characters belong to it. -/
def isBlank (c : Char) : Bool :=
  let n := c.toNat
  (0x9 ≤ n && n ≤ 0xD) || n == 0x20 || n == 0x85 || n == 0xA0 || n == 0x1680 ||
    (0x2000 ≤ n && n ≤ 0x200A) || n == 0x2028 || n == 0x2029 || n == 0x202F || n == 0x205F ||
    n == 0x3000

def trimStart (text : List Char) : List Char :=
  text.dropWhile isBlank

def trimEnd (text : List Char) : List Char :=
  (text.reverse.dropWhile isBlank).reverse

def trim (text : List Char) : List Char :=
  trimEnd (trimStart text)

def cutWord (text : List Char) : List Char × List Char :=
  let text := trimStart text
  (text.takeWhile (!isBlank ·), trimStart (text.dropWhile (!isBlank ·)))

theorem trimStartOther {c : Char} {text : List Char} (other : isBlank c = false) :
    trimStart (c :: text) = c :: text := by
  simp [trimStart, other]

theorem wordHasNoBlank (text : List Char) : ∀ c ∈ (cutWord text).1, isBlank c = false := by
  intro c member
  simpa using List.all_eq_true.mp List.all_takeWhile c member

end RecordQuery.Text
