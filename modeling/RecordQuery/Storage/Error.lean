/-! Why reading and writing fail, and the words for it. -/
namespace RecordQuery

inductive IoError where
  | notFound
  | busy
  | notDirectory
  | isDirectory
  | nameTooLong
  | tooManyLinks
  | nulInPath
  | full
  | other (text : String)
  deriving DecidableEq, Repr

def IoError.message : IoError → String
  | notFound => "No such file or directory (os error 2)"
  | busy => "Device or resource busy (os error 16)"
  | notDirectory => "Not a directory (os error 20)"
  | isDirectory => "Is a directory (os error 21)"
  | nameTooLong => "File name too long (os error 36)"
  | tooManyLinks => "Too many levels of symbolic links (os error 40)"
  | nulInPath => "file name contained an unexpected NUL byte"
  | full => "No space left on device (os error 28)"
  | other text => text

inductive WriteError where
  | io (cause : IoError)
  | unwritable (reason : String)
  deriving DecidableEq, Repr

def WriteError.message : WriteError → String
  | io cause => "IO error: " ++ cause.message
  | unwritable reason => "JSON error: " ++ reason

inductive ReadError where
  | io (cause : IoError)
  | malformed
  deriving DecidableEq, Repr

end RecordQuery
