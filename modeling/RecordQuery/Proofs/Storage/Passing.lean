import RecordQuery.Storage.Buffer

/-! What passing bytes on comes to, whether or not it goes well. A buffer that took part in it
extends the one before: it stands for the same bytes and some more, and its sink has only grown.
Bytes that are refused are the end of what was passed on, and then the sink is full. -/
namespace RecordQuery

namespace Sink

def Within (sink : Sink) : Prop := ∀ limit, sink.limit = some limit → sink.content.length ≤ limit

def Full (sink : Sink) : Prop := sink.limit = some sink.content.length

theorem emptyWithin (limit : Option Nat) : (empty limit).Within := fun _ _ => Nat.zero_le _

theorem takeStaysWithin {sink : Sink} (within : sink.Within) (chunk : Bytes) :
    (sink.take chunk).1.Within :=
  fun limit limited =>
    takeWithin (show sink.limit = some limit from limited) (within limit limited) chunk

theorem takeFull {sink : Sink} (within : sink.Within) {chunk : Bytes}
    (left : (sink.take chunk).2 ≠ []) : (sink.take chunk).1.Full := by
  cases limited : sink.limit with
  | none => simp [take, room, limited] at left
  | some limit =>
    have bound := within limit limited
    simp only [take, room, limited, ne_eq, List.drop_eq_nil_iff] at left
    simp only [Full, take, room, limited, List.length_append, List.length_take]
    congr 1
    omega

theorem takeNothing {sink : Sink} {chunk : Bytes}
    (refused : chunk.length ≤ (sink.take chunk).2.length) : (sink.take chunk).1 = sink := by
  have nothing : chunk.take (sink.room chunk.length) = [] := by
    apply List.eq_nil_of_length_eq_zero
    simp only [take, List.length_drop] at refused
    rw [List.length_take]
    omega
  simp only [take, nothing, List.append_nil]

end Sink

namespace Buffer

def text (buffer : Buffer) : Bytes := buffer.sink.content ++ buffer.held

structure Bounded (buffer : Buffer) : Prop where
  held : buffer.held.length ≤ buffer.capacity
  sink : buffer.sink.Within

theorem newBounded (capacity : Nat) (limit : Option Nat) :
    (new capacity (Sink.empty limit)).Bounded :=
  ⟨Nat.zero_le _, Sink.emptyWithin limit⟩

structure Extends (before after : Buffer) (added : Bytes) : Prop where
  capacity : after.capacity = before.capacity
  limit : after.sink.limit = before.sink.limit
  grows : before.sink.content <+: after.sink.content
  text : after.text = before.text ++ added
  bounded : after.Bounded

theorem Extends.refl {buffer : Buffer} (bounded : buffer.Bounded) : Extends buffer buffer [] :=
  ⟨rfl, rfl, List.prefix_rfl, (List.append_nil _).symm, bounded⟩

theorem Extends.trans {first second third : Buffer} {added more : Bytes}
    (left : Extends first second added) (right : Extends second third more) :
    Extends first third (added ++ more) where
  capacity := right.capacity.trans left.capacity
  limit := right.limit.trans left.limit
  grows := left.grows.trans right.grows
  text := by rw [right.text, left.text, List.append_assoc]
  bounded := right.bounded

variable {buffer : Buffer} {chunk : Bytes}

theorem holdExtends (bounded : buffer.Bounded)
    (fits : buffer.held.length + chunk.length ≤ buffer.capacity) :
    Extends buffer { buffer with held := buffer.held ++ chunk } chunk where
  capacity := rfl
  limit := rfl
  grows := List.prefix_rfl
  text := (List.append_assoc ..).symm
  bounded := ⟨by rw [List.length_append]; exact fits, bounded.sink⟩

theorem takeExtends (bounded : buffer.Bounded) (empty : buffer.held = []) (chunk : Bytes) :
    ∃ taken, taken ++ (buffer.sink.take chunk).2 = chunk ∧
      Extends buffer { buffer with sink := (buffer.sink.take chunk).1 } taken := by
  refine ⟨chunk.take (buffer.sink.room chunk.length), List.take_append_drop .., rfl, rfl,
    List.prefix_append .., ?_, bounded.held, Sink.takeStaysWithin bounded.sink chunk⟩
  simp [text, empty, Sink.take]

inductive Flushed (buffer : Buffer) : Except WriteError Unit × Buffer → Prop where
  | done {after} (reached : Extends buffer after []) (empty : after.held = []) :
      Flushed buffer (.ok (), after)
  | stopped {after} (reached : Extends buffer after []) (left : after.held ≠ [])
      (full : after.sink.Full) : Flushed buffer (.error (.io .full), after)

theorem flushed (bounded : buffer.Bounded) : Flushed buffer buffer.flush := by
  have reached : Extends buffer buffer.flush.2 [] := by
    refine ⟨rfl, rfl, List.prefix_append .., ?_, ?_, Sink.takeStaysWithin bounded.sink _⟩
    · exact (Sink.takeLossless ..).trans (List.append_nil _).symm
    · have shorter : (buffer.sink.take buffer.held).2.length ≤ buffer.held.length := by
        simp [Sink.take]
      exact Nat.le_trans shorter bounded.held
  unfold flush
  dsimp only
  split
  · rename_i empty
    exact .done reached empty
  · rename_i left
    exact .stopped reached left (Sink.takeFull bounded.sink left)

def ready (buffer : Buffer) (chunk : Bytes) : Except WriteError Unit × Buffer :=
  if buffer.capacity < buffer.held.length + chunk.length then buffer.flush else (.ok (), buffer)

theorem pushReady (buffer : Buffer) (chunk : Bytes) :
    buffer.push chunk =
      match buffer.ready chunk with
      | (.error cause, between) => (.error cause, between)
      | (.ok (), between) =>
        if chunk.length < between.capacity then
          (.ok (), { between with held := between.held ++ chunk })
        else if (between.sink.take chunk).2 = [] then
          (.ok (), { between with sink := (between.sink.take chunk).1 })
        else if (between.sink.take chunk).2.length < chunk.length then
          push { between with sink := (between.sink.take chunk).1 } (between.sink.take chunk).2
        else (.error (.io .full), between) := by
  rw [push, ← ready]
  rcases buffer.ready chunk with ⟨cause | ⟨⟩, between⟩
  · rfl
  · rfl

inductive MadeReady (buffer : Buffer) (chunk : Bytes) : Except WriteError Unit × Buffer → Prop where
  | done {between} (reached : Extends buffer between [])
      (fits : between.held = [] ∨ between.held.length + chunk.length ≤ between.capacity) :
      MadeReady buffer chunk (.ok (), between)
  | stopped {between} (reached : Extends buffer between []) (full : between.sink.Full)
      (nonempty : chunk ≠ []) : MadeReady buffer chunk (.error (.io .full), between)

theorem madeReady (bounded : buffer.Bounded) (chunk : Bytes) :
    MadeReady buffer chunk (buffer.ready chunk) := by
  unfold ready
  split
  · rename_i overflows
    have flushing := flushed bounded
    generalize buffer.flush = outcome at flushing ⊢
    cases flushing with
    | done reached empty => exact .done reached (.inl empty)
    | stopped reached left full =>
      refine .stopped reached full ?_
      intro nothing
      have held := bounded.held
      rw [nothing, List.length_nil] at overflows
      omega
  · rename_i fits
    exact .done (Extends.refl bounded) (.inr (Nat.le_of_not_lt fits))

/-- How passing on some bytes ends that would end in some way if the sink took them all: in that
way, or before the last of them because the sink is full. -/
inductive Passed {α : Type} (buffer : Buffer) (bytes : Bytes) (ending : Except WriteError α) :
    Except WriteError α × Buffer → Prop where
  | whole {after} (reached : Extends buffer after bytes) :
      Passed buffer bytes ending (ending, after)
  | cut {after taken refused} (parts : bytes = taken ++ refused) (nonempty : refused ≠ [])
      (reached : Extends buffer after taken) (full : after.sink.Full) :
      Passed buffer bytes ending (.error (.io .full), after)

theorem Passed.after {α : Type} {between : Buffer} {added bytes : Bytes}
    {ending : Except WriteError α} {outcome : Except WriteError α × Buffer}
    (reached : Extends buffer between added) (passed : Passed between bytes ending outcome) :
    Passed buffer (added ++ bytes) ending outcome := by
  cases passed with
  | whole later => exact .whole (reached.trans later)
  | cut parts nonempty later full =>
    exact .cut (by rw [parts, List.append_assoc]) nonempty (reached.trans later) full

theorem Passed.map {α β : Type} {bytes : Bytes} {ending : Except WriteError α}
    {outcome : Except WriteError α × Buffer} (passed : Passed buffer bytes ending outcome)
    (f : α → β) : Passed buffer bytes (ending.map f) (outcome.1.map f, outcome.2) := by
  cases passed with
  | whole reached => exact .whole reached
  | cut parts nonempty reached full => exact .cut parts nonempty reached full

theorem pushPassed (bounded : buffer.Bounded) (chunk : Bytes) :
    Passed buffer chunk (.ok ()) (buffer.push chunk) := by
  induction size : chunk.length using Nat.strongRecOn generalizing buffer chunk with
  | _ size ih =>
    subst size
    rw [pushReady]
    have readying := madeReady bounded chunk
    generalize buffer.ready chunk = outcome at readying ⊢
    cases readying with
    | stopped reached full nonempty => exact .cut rfl nonempty reached full
    | @done between reached fits =>
      apply Passed.after reached
      dsimp only
      split
      · rename_i short
        have within : between.held.length + chunk.length ≤ between.capacity := by
          rcases fits with empty | fits
          · rw [empty, List.length_nil, Nat.zero_add]
            exact Nat.le_of_lt short
          · exact fits
        exact .whole (holdExtends reached.bounded within)
      rename_i long
      have empty : between.held = [] := by
        rcases fits with empty | fits
        · exact empty
        · exact List.eq_nil_of_length_eq_zero (by omega)
      obtain ⟨taken, parts, later⟩ := takeExtends reached.bounded empty chunk
      split
      · rename_i all
        rw [all, List.append_nil] at parts
        exact .whole (parts ▸ later)
      rename_i left
      have nonempty : chunk ≠ [] := by
        intro nothing
        rw [nothing] at left
        simp [Sink.take] at left
      split
      · rename_i shorter
        have whole := Passed.after later (ih _ shorter later.bounded _ rfl)
        rw [parts] at whole
        exact whole
      · rename_i notShorter
        have full := Sink.takeFull reached.bounded.sink left
        rw [Sink.takeNothing (Nat.le_of_not_lt notShorter)] at full
        exact .cut rfl nonempty (Extends.refl reached.bounded) full

def wanted : List (Except WriteError Bytes) → Bytes × Except WriteError Unit
  | [] => ([], .ok ())
  | .error cause :: _ => ([], .error cause)
  | .ok chunk :: rest => (chunk ++ (wanted rest).1, (wanted rest).2)

theorem wantedAppend (front : List Bytes) (back : List (Except WriteError Bytes)) :
    wanted (front.map .ok ++ back) = (front.flatten ++ (wanted back).1, (wanted back).2) := by
  induction front with
  | nil => rfl
  | cons chunk rest ih =>
    rw [List.map_cons, List.cons_append, wanted, ih, List.flatten_cons, List.append_assoc]

theorem pushAllPassed (bounded : buffer.Bounded) (parts : List (Except WriteError Bytes)) :
    Passed buffer (wanted parts).1 (wanted parts).2 (buffer.pushAll parts) := by
  induction parts generalizing buffer with
  | nil => exact .whole (Extends.refl bounded)
  | cons part rest ih =>
    cases part with
    | error cause => exact .whole (Extends.refl bounded)
    | ok chunk =>
      have first := pushPassed bounded chunk
      simp only [pushAll, wanted]
      generalize buffer.push chunk = outcome at first ⊢
      cases first with
      | whole reached => exact Passed.after reached (ih reached.bounded)
      | cut parts nonempty reached full =>
        rw [parts, List.append_assoc]
        exact .cut rfl (List.append_ne_nil_of_left_ne_nil nonempty _) reached full

end Buffer
end RecordQuery
