import RecordQuery.CommandLine

/-! The whole program as a function: from the arguments, the environment, the disk and the room
on the output stream to the exit status, what is printed, and the effects in their order. The
records are printed only after the output file is in place, and an error is printed as one
line. -/
namespace RecordQuery

inductive Failure where
  | run (cause : RunError)
  | print (cause : IoError)
  deriving DecidableEq, Repr

def Failure.message : Failure → String
  | run cause => cause.message
  | print cause => cause.message

def Sink.print (sink : Sink) (text : List Char) : Except IoError Unit × Sink :=
  let (sink, rest) := sink.take (Text.encode (String.ofList text))
  (if rest = [] then .ok () else .error .full, sink)

inductive Effect where
  | changed (change : Change)
  | printed (bytes : Bytes)
  deriving DecidableEq, Repr

namespace Effect

def change? : Effect → Option Change
  | changed change => some change
  | printed _ => none

def bytes : Effect → Bytes
  | changed _ => []
  | printed bytes => bytes

def printing (before after : Sink) : Effect :=
  printed (after.content.drop before.content.length)

end Effect

structure Execution where
  result : Except Failure Unit
  stdout : Sink
  effects : List Effect

def Execution.changes (execution : Execution) : List Change :=
  execution.effects.filterMap Effect.change?

def Settings.perform (reader : DoubleReader) (settings : Settings) (format : Format)
    (appearance : Appearance) (shows : Bool) (disk : Disk) (hazards : Hazards) (stdout : Sink) :
    Execution :=
  match settings.run reader disk hazards with
  | (.error cause, changes) => ⟨.error (.run cause), stdout, changes.map .changed⟩
  | (.ok records, changes) =>
    let (result, after) := stdout.print (Report.print format appearance shows records)
    ⟨result.mapError .print, after, changes.map .changed ++ [.printing stdout after]⟩

def Arguments.perform (reader : DoubleReader) (arguments : Arguments) (environment : Environment)
    (shows : Bool) (disk : Disk) (hazards : Hazards) (stdout : Sink) : Execution :=
  arguments.settings.perform reader arguments.format
    (Appearance.ofEnvironment environment arguments.template) shows disk hazards stdout

structure Outcome where
  status : Nat
  stdout : Sink
  stderr : List Char
  effects : List Effect

def Outcome.changes (outcome : Outcome) : List Change :=
  outcome.effects.filterMap Effect.change?

namespace Program

def versionLine : List Char := "recsift 0.1.0\n".toList

def usage : List Char :=
  ("Usage: recsift [OPTIONS] [QUERY] [INPUT] [OUTPUT]\n\n" ++
    "  QUERY             <count> [where %key%<op>value], all by default\n" ++
    "  INPUT             JSON file holding an array of records\n" ++
    "  OUTPUT            file the selected records are written to\n\n" ++
    "  --strict          only accept region, city and number as keys\n" ++
    "  --json            print the result as JSON\n" ++
    "  --template <TEXT> template of each report line\n" ++
    "  -h, --help        print this text\n" ++
    "  -V, --version     print the version\n").toList

def refusalLine : Refusal → String
  | .unknownArgument => "error: unexpected argument found"
  | .repeated => "error: an argument cannot be used multiple times"
  | .valueNotWanted => "error: a value was given to a flag"
  | .invalidValue => "error: a value is missing or empty"
  | .help | .version => ""

def tell (text : List Char) (stdout : Sink) : Outcome :=
  let after := (stdout.print text).2
  ⟨0, after, [], [.printing stdout after]⟩

def refuse (refusal : Refusal) (stdout : Sink) : Outcome :=
  match refusal with
  | .help => tell usage stdout
  | .version => tell versionLine stdout
  | other => ⟨2, stdout, (refusalLine other).toList ++ '\n' :: usage, []⟩

def errorLine (environment : Environment) (terminal : Bool) (failure : Failure) : List Char :=
  Report.error (Appearance.ofEnvironment environment Appearance.defaultTemplate)
    (environment.showsStyles terminal) failure.message

def run (reader : DoubleReader) (arguments : List String) (environment : Environment)
    (terminal : Bool) (disk : Disk) (hazards : Hazards) (stdout : Sink) : Outcome :=
  match Arguments.ofList arguments with
  | .error refusal => refuse refusal stdout
  | .ok arguments =>
    let shows := environment.showsStyles terminal
    let execution := arguments.perform reader environment shows disk hazards stdout
    match execution.result with
    | .ok () => ⟨0, execution.stdout, [], execution.effects⟩
    | .error failure =>
      ⟨1, execution.stdout, errorLine environment terminal failure, execution.effects⟩

end Program
end RecordQuery
