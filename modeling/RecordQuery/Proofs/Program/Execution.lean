import RecordQuery.Program

/-! How the program goes on after its run. It stops with the error of the run and prints nothing,
or it prints the selection as far as the stream takes it. All changes of the disk come before
anything that is printed. -/
namespace RecordQuery

namespace Sink

inductive Took (sink : Sink) (bytes : Bytes) : Except IoError Unit × Sink → Prop where
  | whole : Took sink bytes (.ok (), ⟨sink.content ++ bytes, sink.limit⟩)
  | part {taken refused} (split : taken ++ refused = bytes) (left : refused ≠ []) :
      Took sink bytes (.error .full, ⟨sink.content ++ taken, sink.limit⟩)

theorem took (sink : Sink) (text : List Char) :
    Took sink (Text.encode (String.ofList text)) (sink.print text) := by
  unfold print take
  generalize Text.encode (String.ofList text) = bytes
  dsimp only
  split
  · rename_i nothing
    rw [List.take_of_length_le (List.drop_eq_nil_iff.mp nothing)]
    exact .whole
  · rename_i left
    exact .part (List.take_append_drop ..) left

end Sink

namespace Effect

theorem printingTaken (sink : Sink) (taken : Bytes) :
    printing sink ⟨sink.content ++ taken, sink.limit⟩ = printed taken := by
  rw [printing, List.drop_left]

theorem changesChanged (changes : List Change) :
    (changes.map changed).filterMap change? = changes := by
  rw [List.filterMap_map]
  exact List.filterMap_some

theorem changesPrinted (changes : List Change) (bytes : Bytes) :
    (changes.map changed ++ [printed bytes]).filterMap change? = changes := by
  rw [List.filterMap_append, changesChanged]
  exact List.append_nil changes

end Effect

/-- What has been done of some effects at any moment: the first of them, perhaps all, and of bytes
that are added to a file or printed perhaps only a part. -/
inductive Underway : List Effect → List Effect → Prop where
  | stop {effects} : Underway effects []
  | adding {place bytes rest} (count : Nat) :
      Underway (.changed (.appended place bytes) :: rest)
        [.changed (.appended place (bytes.take count))]
  | printing {bytes rest} (count : Nat) :
      Underway (.printed bytes :: rest) [.printed (bytes.take count)]
  | next {effect rest done} (later : Underway rest done) :
      Underway (effect :: rest) (effect :: done)

theorem Underway.changes {changes : List Change} {later done : List Effect}
    (underway : Underway (changes.map .changed ++ later) done) :
    (∃ made : List Change, done = made.map .changed) ∨
      ∃ further, Underway later further ∧ done = changes.map .changed ++ further := by
  induction changes generalizing done with
  | nil => exact .inr ⟨done, underway, rfl⟩
  | cons change rest ih =>
    cases underway with
    | stop => exact .inl ⟨[], rfl⟩
    | @adding place bytes _ count => exact .inl ⟨[.appended place (bytes.take count)], rfl⟩
    | next sooner =>
      rcases ih sooner with ⟨made, rfl⟩ | ⟨further, others, rfl⟩
      · exact .inl ⟨change :: made, rfl⟩
      · exact .inr ⟨further, others, rfl⟩

inductive Settings.Performed (reader : DoubleReader) (settings : Settings) (disk : Disk)
    (hazards : Hazards) (stdout : Sink) (text : List Record → Bytes) : Execution → Prop where
  | failed {cause} (stopped : (settings.run reader disk hazards).1 = .error cause) :
      Performed reader settings disk hazards stdout text
        ⟨.error (.run cause), stdout, (settings.run reader disk hazards).2.map .changed⟩
  | cut {selection taken refused} (went : (settings.run reader disk hazards).1 = .ok selection)
      (split : taken ++ refused = text selection) (left : refused ≠ []) :
      Performed reader settings disk hazards stdout text
        ⟨.error (.print .full), ⟨stdout.content ++ taken, stdout.limit⟩,
          (settings.run reader disk hazards).2.map .changed ++ [.printed taken]⟩
  | done {selection} (went : (settings.run reader disk hazards).1 = .ok selection) :
      Performed reader settings disk hazards stdout text
        ⟨.ok (), ⟨stdout.content ++ text selection, stdout.limit⟩,
          (settings.run reader disk hazards).2.map .changed ++ [.printed (text selection)]⟩

def Report.bytes (format : Format) (appearance : Appearance) (shows : Bool)
    (records : List Record) : Bytes :=
  Text.encode (String.ofList (Report.print format appearance shows records))

theorem Settings.performed (reader : DoubleReader) (settings : Settings) (format : Format)
    (appearance : Appearance) (shows : Bool) (disk : Disk) (hazards : Hazards) (stdout : Sink) :
    Performed reader settings disk hazards stdout (Report.bytes format appearance shows)
      (settings.perform reader format appearance shows disk hazards stdout) := by
  unfold perform
  split
  · rename_i cause changes ran
    have same : changes = (settings.run reader disk hazards).2 := by rw [ran]
    rw [same]
    exact .failed (by rw [ran])
  · rename_i records changes ran
    have went : (settings.run reader disk hazards).1 = .ok records := by rw [ran]
    have same : changes = (settings.run reader disk hazards).2 := by rw [ran]
    have took := stdout.took (Report.print format appearance shows records)
    generalize stdout.print (Report.print format appearance shows records) = outcome at took ⊢
    rw [same]
    cases took with
    | whole =>
      simp only [Effect.printingTaken]
      exact .done went
    | part split left =>
      simp only [Effect.printingTaken]
      exact .cut went split left

end RecordQuery
