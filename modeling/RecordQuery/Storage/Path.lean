/-! Paths as texts. The file name of a path is its last part, slashes and single dots after it
not counted; a path that ends in a parent step, or has no part at all, has none. An extension is
what follows the last dot of a file name, unless that dot is its first character. -/
namespace RecordQuery.Path

def names (path : List Char) : List (List Char) :=
  (path.splitOn '/').filter (· ≠ [])

def isAbsolute (path : List Char) : Bool :=
  path.head? == some '/'

def endsInSlash (path : List Char) : Bool :=
  path.getLast? == some '/'

def dropEnd : List Char → List Char
  | '/' :: rest => dropEnd rest
  | '.' :: '/' :: rest => dropEnd rest
  | rest => rest

def split? (path : List Char) : Option (List Char × List Char) :=
  let kept := dropEnd path.reverse
  let name := (kept.takeWhile (· ≠ '/')).reverse
  if name = [] ∨ name = ['.'] ∨ name = ['.', '.'] then none
  else some ((kept.dropWhile (· ≠ '/')).reverse, name)

def splitExtension (name : List Char) : List Char × Option (List Char) :=
  match name.reverse.dropWhile (· ≠ '.') with
  | _ :: c :: stem =>
    ((c :: stem).reverse, some (name.reverse.takeWhile (· ≠ '.')).reverse)
  | _ => (name, none)

def withExtension (path extension : List Char) : List Char :=
  match split? path with
  | none => path
  | some (leading, name) => leading ++ ((splitExtension name).1 ++ '.' :: extension)

def temporary (path : List Char) : List Char :=
  match split? path with
  | none => path
  | some (_, name) =>
    match (splitExtension name).2 with
    | none => withExtension path "tmp".toList
    | some extension => withExtension path (extension ++ ".tmp".toList)

end RecordQuery.Path
