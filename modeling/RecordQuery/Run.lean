import RecordQuery.Query.Reading
import RecordQuery.Query.Selection
import RecordQuery.Storage.Replacement

/-! One run: the query is read, the records are loaded, the query is applied, and the selection
replaces the output file. The first of these that fails is the error of the run, and nothing
after it is done. -/
namespace RecordQuery

structure Settings where
  query : String
  input : String
  output : String
  strictness : Strictness
  deriving DecidableEq, Repr

namespace Settings

def defaultQuery : String := "all"
def defaultInput : String := "./cities.json"
def defaultOutput : String := "./output.json"

def make (query input output : String) (strictness : Strictness) : Settings where
  query := if Text.trim query.toList = [] then defaultQuery else query
  input := if input = "" then defaultInput else input
  output := if output = "" then defaultOutput else output
  strictness := strictness

def default : Settings := make defaultQuery defaultInput defaultOutput .lenient

end Settings

inductive RunError where
  | query (cause : QueryError)
  | unreadable (cause : IoError)
  | malformed
  | emptyResult
  | write (cause : WriteError)
  deriving DecidableEq, Repr

namespace RunError

def message : RunError → String
  | query cause => cause.message
  | unreadable _ => "Could not process file"
  | malformed => "This is not JSON file"
  | emptyResult => "Search results are empty"
  | write cause => "Could not write output file: " ++ cause.message

def ofRead : ReadError → RunError
  | .io cause => unreadable cause
  | .malformed => malformed

end RunError

namespace Settings

def readQuery (settings : Settings) : Except RunError Query :=
  (Query.ofText settings.strictness settings.query).mapError .query

def records (reader : DoubleReader) (settings : Settings) (disk : Disk) (hazards : Hazards) :
    Except RunError (List Record) :=
  (disk.readRecords reader hazards settings.input).mapError .ofRead

def select (reader : DoubleReader) (settings : Settings) (disk : Disk) (hazards : Hazards) :
    Except RunError (List Record) :=
  settings.readQuery.bind fun query =>
    (settings.records reader disk hazards).bind fun records =>
      match query.select? records with
      | some selection => .ok selection
      | none => .error .emptyResult

def run (reader : DoubleReader) (settings : Settings) (disk : Disk) (hazards : Hazards) :
    Except RunError (List Record) × List Change :=
  match settings.select reader disk hazards with
  | .error cause => (.error cause, [])
  | .ok selection =>
    match disk.replace hazards settings.output (selection.map fun record => .value record.toJson)
    with
    | (.error cause, changes) => (.error (.write cause), changes)
    | (.ok (), changes) => (.ok selection, changes)

end Settings
end RecordQuery
