import RecordQuery.Json.Text
import RecordQuery.Storage.Error
import RecordQuery.Storage.Sink

/-! A buffer before a sink, and writing a JSON array through it item by item. The array comes in
chunks: the opening bracket, each item's text with a comma before all but the first, and the
closing bracket. Writing stops at the first chunk that cannot be made or passed on; what was
passed on before stays. -/
namespace RecordQuery

inductive Item where
  | value (value : Json)
  | unwritable (reason : String)

def Item.bytes : Item → Except WriteError Bytes
  | .value v => .ok v.bytes
  | .unwritable reason => .error (.unwritable reason)

structure Buffer where
  capacity : Nat
  held : Bytes
  sink : Sink
  deriving DecidableEq, Repr

namespace Buffer

def defaultCapacity : Nat := 8192

def new (capacity : Nat) (sink : Sink) : Buffer := ⟨capacity, [], sink⟩

def flush (buffer : Buffer) : Except WriteError Unit × Buffer :=
  let (sink, rest) := buffer.sink.take buffer.held
  (if rest = [] then .ok () else .error (.io .full), { buffer with held := rest, sink := sink })

/-- Passes on a chunk. If it does not fit beside the held bytes, these go to the sink first. A
chunk of at least the capacity goes straight to the sink, and if only a part of it fits there the
rest is a chunk of its own; a shorter one is held. -/
def push (buffer : Buffer) (chunk : Bytes) : Except WriteError Unit × Buffer :=
  let (flushed, buffer) :=
    if buffer.capacity < buffer.held.length + chunk.length then buffer.flush
    else (.ok (), buffer)
  match flushed with
  | .error cause => (.error cause, buffer)
  | .ok () =>
    if chunk.length < buffer.capacity then
      (.ok (), { buffer with held := buffer.held ++ chunk })
    else
      let (sink, rest) := buffer.sink.take chunk
      if rest = [] then (.ok (), { buffer with sink := sink })
      else if rest.length < chunk.length then push { buffer with sink := sink } rest
      else (.error (.io .full), buffer)
termination_by chunk.length

def chunks (items : List Item) : List (Except WriteError Bytes) :=
  let between : Bytes := Text.encode ","
  let body : List (Except WriteError Bytes) := match items with
    | [] => []
    | first :: rest => first.bytes :: rest.flatMap fun item => [.ok between, item.bytes]
  .ok (Text.encode "[") :: (body ++ [.ok (Text.encode "]")])

def pushAll (buffer : Buffer) :
    List (Except WriteError Bytes) → Except WriteError Unit × Buffer
  | [] => (.ok (), buffer)
  | .error cause :: _ => (.error cause, buffer)
  | .ok chunk :: rest =>
    match buffer.push chunk with
    | (.error cause, buffer) => (.error cause, buffer)
    | (.ok (), buffer) => buffer.pushAll rest

def writeArray (buffer : Buffer) (items : List Item) : Except WriteError Nat × Buffer :=
  let (written, buffer) := buffer.pushAll (chunks items)
  (written.map fun () => items.length, buffer)

def deliver (capacity : Nat) (sink : Sink) (items : List Item) : Except WriteError Unit × Sink :=
  match (new capacity sink).writeArray items with
  | (.error cause, buffer) => (.error cause, buffer.sink)
  | (.ok _, buffer) =>
    let (flushed, buffer) := buffer.flush
    (flushed, buffer.sink)

end Buffer
end RecordQuery
