/-! Styles of printed text, as terminal sequences around it. -/
namespace RecordQuery

inductive Style where
  | error
  | muted
  | emphasis
  deriving DecidableEq, Repr

namespace Style

def start : Style → List Char
  | error => "\x1b[31m".toList
  | muted => "\x1b[2m".toList
  | emphasis => "\x1b[1m".toList

def reset : List Char := "\x1b[0m".toList

def resume (style : Style) : List Char → List Char
  | [] => []
  | '\x1b' :: '[' :: '0' :: 'm' :: rest => reset ++ style.start ++ style.resume rest
  | c :: rest => c :: style.resume rest

def apply (style : Style) (shows : Bool) (text : List Char) : List Char :=
  if shows then style.start ++ style.resume text ++ reset else text

end Style
end RecordQuery
