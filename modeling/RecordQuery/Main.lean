import RecordQuery.Program

/-! The command-line program. What the program looks at on the disk is observed first, a link as
what it leads to; the run is then decided by `Program.run`, and the changes that it tells are
carried out before anything is printed. -/
namespace RecordQuery.Main

def watched : List String :=
  [Environment.noColour, Environment.colour, "CLICOLOR", "CLICOLOR_FORCE"]

def environment : IO Environment :=
  watched.filterMapM fun name => do
    return (← IO.getEnv name).map (name, ·)

def pathOf (place : Place) : String :=
  "/" ++ "/".intercalate place

/-- What is at a place now; the content of a file is read only if it is wanted. Only a directory can
be opened through a step to itself. -/
def observeNode (wanted : Bool) (place : Place) : IO (Option Node) := do
  try
    let _ ← IO.FS.Handle.mk (pathOf place ++ "/.") .read
    return some .directory
  catch _ =>
    try
      if wanted then
        let content ← IO.FS.readBinFile (pathOf place)
        return some (.file content.data.toList)
      else
        let _ ← IO.FS.Handle.mk (pathOf place) .read
        return some (.file [])
    catch _ => return none

def observePath (wanted : Bool) (disk : Disk) (path : String) : IO Disk := do
  let start := if Path.isAbsolute path.toList then [] else disk.current
  let names := (Path.names path.toList).map String.ofList
  let (disk, _) ← names.foldlM (fun (disk, place) name => do
    let place := Place.follow place name
    match ← observeNode wanted place with
    | some node => return (if place = [] then disk else disk.put place node, place)
    | none => return (disk, place)) (disk, start)
  return disk

def observe (arguments : Arguments) : IO Disk := do
  let current := (← IO.currentDir).toString
  let settings := arguments.settings
  let here : Disk := ⟨[], (Path.names current.toList).map String.ofList⟩
  let disk ← [current, settings.output, Disk.temporary settings.output].foldlM
    (observePath false) here
  observePath true disk settings.input

def carryOut : Change → IO Unit
  | .created place => IO.FS.writeBinFile (pathOf place) ByteArray.empty
  | .appended place bytes => do
    let handle ← IO.FS.Handle.mk (pathOf place) .append
    handle.write ⟨bytes.toArray⟩
    handle.flush
  | .moved source destination => IO.FS.rename (pathOf source) (pathOf destination)
  | .removed place => IO.FS.removeFile (pathOf place)

def hazard (change : Change) (cause : IoError) : Hazards :=
  match change with
  | .created _ => { Hazards.absent with creating := some cause }
  | .appended _ _ => { Hazards.absent with flushing := some cause }
  | .moved _ _ => { Hazards.absent with moving := some cause }
  | .removed _ => Hazards.absent

def causeOf (error : IO.Error) : IoError :=
  .other (String.ofList ((toString error).toList.takeWhile (· ≠ '\n')))

def carryOutAll : List Change → IO (Option Hazards)
  | [] => return none
  | change :: rest => do
    try
      carryOut change
    catch cause =>
      return some (hazard change (causeOf cause))
    carryOutAll rest

def cleanUp (changes : List Change) : IO Unit :=
  changes.forM fun change =>
    match change with
    | .removed _ => try carryOut change catch _ => return
    | _ => return

def finish (errorLine : IoError → List Char) (outcome : Outcome) : IO UInt32 := do
  let stdout ← IO.getStdout
  let stderr ← IO.getStderr
  try
    stdout.write ⟨outcome.stdout.content.toArray⟩
    stdout.flush
    stderr.putStr (String.ofList outcome.stderr)
    return UInt32.ofNat outcome.status
  catch cause =>
    stderr.putStr (String.ofList (errorLine (causeOf cause)))
    return 1

end RecordQuery.Main

open RecordQuery in
def main (arguments : List String) : IO UInt32 := do
  let environment ← Main.environment
  let terminal ← (← IO.getStdout).isTty
  let disk ← match Arguments.ofList arguments with
    | .ok arguments => Main.observe arguments
    | .error _ => pure ⟨[], []⟩
  let run (hazards : Hazards) : Outcome :=
    Program.run .nearest arguments environment terminal disk hazards (.empty none)
  let errorLine (cause : IoError) : List Char :=
    Program.errorLine environment terminal (.print cause)
  let outcome := run .absent
  match ← Main.carryOutAll outcome.changes with
  | none => Main.finish errorLine outcome
  | some hazards =>
    let outcome := run hazards
    Main.cleanUp outcome.changes
    Main.finish errorLine outcome
