import RecordQuery.Text.Utf8

/-! A sink takes bytes up to a limit, or without one. It takes of a chunk what still fits. -/
namespace RecordQuery

structure Sink where
  content : Bytes
  limit : Option Nat
  deriving DecidableEq, Repr

namespace Sink

def empty (limit : Option Nat) : Sink := ⟨[], limit⟩

def room (sink : Sink) (wanted : Nat) : Nat :=
  match sink.limit with
  | none => wanted
  | some limit => min wanted (limit - sink.content.length)

def take (sink : Sink) (chunk : Bytes) : Sink × Bytes :=
  let room := sink.room chunk.length
  ({ sink with content := sink.content ++ chunk.take room }, chunk.drop room)

theorem takeLossless (sink : Sink) (chunk : Bytes) :
    (sink.take chunk).1.content ++ (sink.take chunk).2 = sink.content ++ chunk := by
  simp [take]

theorem takeWithin {sink : Sink} {limit : Nat} (limited : sink.limit = some limit)
    (within : sink.content.length ≤ limit) (chunk : Bytes) :
    (sink.take chunk).1.content.length ≤ limit := by
  simp only [take, room, limited, List.length_append, List.length_take]
  omega

end Sink
end RecordQuery
