import RecordQuery.Report.Basic
import RecordQuery.Run

/-! The command line: up to three positional arguments, two flags and one option with a value.
Arguments are read from left to right and the first problem ends the reading, as does a request
for help or for the version. A positional argument, and an option whose value is an argument of
its own, is pending at first: it is checked when the next argument has its turn, or at the end.
An argument that has no meaning where it stands, being unknown, one too many, or a flag with a
value, is refused before what is pending is checked. -/
namespace RecordQuery

structure Arguments where
  query : String
  input : String
  output : String
  strict : Bool
  json : Bool
  template : String
  deriving DecidableEq, Repr

inductive Refusal where
  | help
  | version
  | unknownArgument
  | repeated
  | valueNotWanted
  | invalidValue
  deriving DecidableEq, Repr

inductive Argument where
  | separator
  | named (name : List Char) (value : Option String)
  | lettered (letter : Char)
  | plain (text : String)
  deriving DecidableEq, Repr

namespace Argument

def splitValue (text : List Char) : List Char × Option String :=
  match text.dropWhile (· ≠ '=') with
  | [] => (text, none)
  | _ :: value => (text.takeWhile (· ≠ '='), some (String.ofList value))

def ofString (text : String) : Argument :=
  match text.toList with
  | ['-', '-'] => separator
  | '-' :: '-' :: option => named (splitValue option).1 (splitValue option).2
  | '-' :: letter :: _ => lettered letter
  | _ => plain text

end Argument

namespace Arguments

inductive Pending where
  | nothing
  | positional (text : String)
  | option
  | template (value : String)
  deriving DecidableEq, Repr

structure Partial where
  positionals : List String
  strict : Bool
  json : Bool
  template : Option String
  pending : Pending
  deriving DecidableEq, Repr

namespace Partial

def start : Partial := ⟨[], false, false, none, .nothing⟩

def addPositional (sofar : Partial) (text : String) : Except Refusal Partial :=
  if sofar.positionals ≠ [] ∧ text = "" then .error .invalidValue
  else .ok { sofar with positionals := sofar.positionals ++ [text] }

def setStrict (sofar : Partial) : Except Refusal Partial :=
  if sofar.strict then .error .repeated else .ok { sofar with strict := true }

def setJson (sofar : Partial) : Except Refusal Partial :=
  if sofar.json then .error .repeated else .ok { sofar with json := true }

def setTemplate (sofar : Partial) (template : String) : Except Refusal Partial :=
  if sofar.template.isSome then .error .repeated
  else .ok { sofar with template := some template }

def settle (sofar : Partial) : Except Refusal Partial :=
  let checked := { sofar with pending := .nothing }
  match sofar.pending with
  | .nothing => .ok checked
  | .positional text => checked.addPositional text
  | .option => .error .invalidValue
  | .template value => checked.setTemplate value

def positionalCount (sofar : Partial) : Nat :=
  match sofar.pending with
  | .positional _ => sofar.positionals.length + 1
  | _ => sofar.positionals.length

def positional (sofar : Partial) (text : String) : Except Refusal Partial :=
  if 3 ≤ sofar.positionalCount then .error .unknownArgument
  else sofar.settle.map fun sofar => { sofar with pending := .positional text }

def plain (sofar : Partial) (text : String) : Except Refusal Partial :=
  match sofar.pending with
  | .option => .ok { sofar with pending := .template text }
  | _ => sofar.positional text

def flag (sofar : Partial) (value : Option String) (effect : Partial → Except Refusal Partial) :
    Except Refusal Partial :=
  if value.isSome then .error .valueNotWanted else sofar.settle.bind effect

def option (sofar : Partial) (value : Option String) : Except Refusal Partial :=
  sofar.settle.bind fun sofar =>
    match value with
    | some template => sofar.setTemplate template
    | none => .ok { sofar with pending := .option }

def named (sofar : Partial) (name : List Char) (value : Option String) :
    Except Refusal Partial :=
  if name = "template".toList then sofar.option value
  else if name = "strict".toList then sofar.flag value setStrict
  else if name = "json".toList then sofar.flag value setJson
  else if name = "help".toList then sofar.flag value fun _ => .error .help
  else if name = "version".toList then sofar.flag value fun _ => .error .version
  else .error .unknownArgument

def lettered (sofar : Partial) (letter : Char) : Except Refusal Partial :=
  if letter = 'h' then sofar.flag none fun _ => .error .help
  else if letter = 'V' then sofar.flag none fun _ => .error .version
  else .error .unknownArgument

def finish (sofar : Partial) : Arguments where
  query := sofar.positionals.getD 0 Settings.defaultQuery
  input := sofar.positionals.getD 1 Settings.defaultInput
  output := sofar.positionals.getD 2 Settings.defaultOutput
  strict := sofar.strict
  json := sofar.json
  template := sofar.template.getD Appearance.defaultTemplate

end Partial

def read (sofar : Partial) : List String → Except Refusal Partial
  | [] => .ok sofar
  | text :: rest =>
    match Argument.ofString text with
    | .separator => rest.foldlM Partial.positional sofar
    | .named name value => (sofar.named name value).bind fun sofar => read sofar rest
    | .lettered letter => (sofar.lettered letter).bind fun sofar => read sofar rest
    | .plain text => (sofar.plain text).bind fun sofar => read sofar rest

def ofList (arguments : List String) : Except Refusal Arguments :=
  ((read .start arguments).bind Partial.settle).map Partial.finish

def settings (arguments : Arguments) : Settings :=
  Settings.make arguments.query arguments.input arguments.output
    (if arguments.strict then .strict else .lenient)

def format (arguments : Arguments) : Format :=
  if arguments.json then .json else .text

end Arguments
end RecordQuery
