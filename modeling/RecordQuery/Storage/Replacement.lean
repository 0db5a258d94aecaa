import RecordQuery.Record
import RecordQuery.Storage.Buffer
import RecordQuery.Storage.Disk

/-! Replacing a file by a JSON array, at once or not at all. The array is written to a temporary
file beside the target, which then takes the target's place. If anything fails, nothing is moved
and the temporary file is removed if it can be. The result tells every change of the disk in order:
at any moment the first of them have been made, and of an addition of bytes perhaps a part. -/
namespace RecordQuery

/-- What may fail although the disk's state allows it: reading the input, creating the temporary
file, giving it more than some number of bytes, flushing it, moving it, and removing it. -/
structure Hazards where
  reading : Option IoError
  creating : Option IoError
  room : Option Nat
  flushing : Option IoError
  moving : Option IoError
  removing : Option IoError
  deriving DecidableEq, Repr

def Hazards.absent : Hazards := ⟨.none, .none, .none, .none, .none, .none⟩

def Hazards.before {α : Type} (hazard : Option IoError) (result : Except IoError α) :
    Except IoError α :=
  match hazard with
  | .some cause => .error cause
  | .none => result

def Hazards.afterwards (hazards : Hazards) (written : Except WriteError Unit) :
    Except WriteError Unit :=
  match written, hazards.flushing with
  | .ok (), some cause => .error (.io cause)
  | written, _ => written

namespace Disk

def temporary (target : String) : String :=
  String.ofList (Path.temporary target.toList)

def attemptReplace (disk : Disk) (hazards : Hazards) (target : String) (items : List Item) :
    Except WriteError Unit × List Change :=
  match Hazards.before hazards.creating (disk.creation (temporary target)) with
  | .error cause => (.error (.io cause), [])
  | .ok place =>
    let (written, sink) := Buffer.deliver Buffer.defaultCapacity (Sink.empty hazards.room) items
    let changes := [.created place, .appended place sink.content]
    match hazards.afterwards written with
    | .error cause => (.error cause, changes)
    | .ok () =>
      match Hazards.before hazards.moving ((disk.applyAll changes).move (temporary target) target)
      with
      | .error cause => (.error (.io cause), changes)
      | .ok change => (.ok (), changes ++ [change])

/-- Nothing is said about a removal that fails. -/
def cleanUp (disk : Disk) (hazards : Hazards) (path : String) : List Change :=
  match hazards.removing, disk.removal? path with
  | .none, some place => [.removed place]
  | _, _ => []

def replace (disk : Disk) (hazards : Hazards) (target : String) (items : List Item) :
    Except WriteError Unit × List Change :=
  match disk.attemptReplace hazards target items with
  | (.ok (), changes) => (.ok (), changes)
  | (.error cause, changes) =>
    (.error cause, changes ++ (disk.applyAll changes).cleanUp hazards (temporary target))

def fetch (disk : Disk) (hazards : Hazards) (path : String) : Except IoError Bytes :=
  Hazards.before hazards.reading (disk.read path)

def readArray (reader : DoubleReader) (disk : Disk) (hazards : Hazards) (path : String) :
    Except ReadError (List Json) :=
  match disk.fetch hazards path with
  | .error cause => .error (.io cause)
  | .ok content =>
    match Json.readArray? reader content with
    | some items => .ok items
    | none => .error .malformed

def readRecords (reader : DoubleReader) (disk : Disk) (hazards : Hazards) (path : String) :
    Except ReadError (List Record) :=
  match disk.fetch hazards path with
  | .error cause => .error (.io cause)
  | .ok content =>
    match Record.readAll? reader content with
    | some records => .ok records
    | none => .error .malformed

end Disk
end RecordQuery
