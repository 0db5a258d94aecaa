import RecordQuery.Proofs.Storage.Delivery

/-! Calls on one buffer, one after another, whatever becomes of each. Every call adds a front of
its own text to what was passed on before, and its answer says which; that a call fails changes
nothing about the bytes of those before and after it. -/
namespace RecordQuery.Buffer

inductive Call where
  | write (items : List Item)
  | flush

inductive Answer where
  | wrote (result : Except WriteError Nat)
  | flushed (result : Except WriteError Unit)

def Answer.StoppedBySink : Answer → Prop
  | wrote result => ∃ cause, result = .error (.io cause)
  | flushed result => ∃ cause, result = .error (.io cause)

def perform (buffer : Buffer) : Call → Answer × Buffer
  | .write items => (.wrote (buffer.writeArray items).1, (buffer.writeArray items).2)
  | .flush => (.flushed buffer.flush.1, buffer.flush.2)

structure Session where
  answers : List Answer
  buffer : Buffer

def Session.next (session : Session) (call : Call) : Session :=
  ⟨session.answers ++ [(session.buffer.perform call).1], (session.buffer.perform call).2⟩

def Session.run (session : Session) (calls : List Call) : Session :=
  calls.foldl next session

def session (start : Buffer) (calls : List Call) : Session :=
  Session.run ⟨[], start⟩ calls

inductive Adds : Call → Answer → Bytes → Prop where
  | wrote {items result bytes} (spelled : Spells items result bytes) :
      Adds (.write items) (.wrote result) bytes
  | cut {items result taken refused} (spelled : Spells items result (taken ++ refused))
      (nonempty : refused ≠ []) : Adds (.write items) (.wrote (.error (.io .full))) taken
  | flushed {result} : Adds .flush (.flushed result) []

inductive Accounts : List Call → List Answer → Bytes → Prop where
  | start : Accounts [] [] []
  | next {calls answers bytes call answer added} (earlier : Accounts calls answers bytes)
      (adds : Adds call answer added) :
      Accounts (calls ++ [call]) (answers ++ [answer]) (bytes ++ added)

theorem Extends.full {before after : Buffer} {added : Bytes} (reached : Extends before after added)
    (full : before.sink.Full) : after.sink.Full := by
  have limited : after.sink.limit = some before.sink.content.length := reached.limit.trans full
  have most := reached.bounded.sink _ limited
  have least := reached.grows.length_le
  rw [Sink.Full, limited, Nat.le_antisymm least most]

structure Performed (before : Buffer) (call : Call) (answer : Answer) (after : Buffer)
    (added : Bytes) : Prop where
  reached : Extends before after added
  adds : Adds call answer added
  full : answer.StoppedBySink → after.sink.Full

theorem writePerformed {buffer : Buffer} (bounded : buffer.Bounded) (items : List Item) :
    ∃ added, Performed buffer (.write items) (.wrote (buffer.writeArray items).1)
      (buffer.writeArray items).2 added := by
  obtain ⟨result, bytes, spelled, passed⟩ := writeArrayPassed bounded items
  generalize buffer.writeArray items = outcome at passed ⊢
  cases passed with
  | whole reached =>
    refine ⟨bytes, reached, .wrote spelled, ?_⟩
    intro stopped
    obtain ⟨cause, same⟩ := stopped
    cases spelled <;> nomatch same
  | @cut after taken refused parts nonempty reached full =>
    rw [parts] at spelled
    exact ⟨taken, reached, .cut spelled nonempty, fun _ => full⟩

theorem flushPerformed {buffer : Buffer} (bounded : buffer.Bounded) :
    Performed buffer .flush (.flushed buffer.flush.1) buffer.flush.2 [] := by
  have flushing := flushed bounded
  generalize buffer.flush = outcome at flushing ⊢
  cases flushing with
  | done reached empty => exact ⟨reached, .flushed, nofun⟩
  | stopped reached left full => exact ⟨reached, .flushed, fun _ => full⟩

theorem performed {buffer : Buffer} (bounded : buffer.Bounded) (call : Call) :
    ∃ added, Performed buffer call (buffer.perform call).1 (buffer.perform call).2 added := by
  cases call with
  | write items => exact writePerformed bounded items
  | flush => exact ⟨[], flushPerformed bounded⟩

structure Sound (start : Buffer) (calls : List Call) (session : Session) : Prop where
  reached : ∃ added, Extends start session.buffer added ∧ Accounts calls session.answers added
  full : ∀ answer ∈ session.answers, answer.StoppedBySink → session.buffer.sink.Full

theorem Sound.bounded {start : Buffer} {calls : List Call} {session : Session}
    (sound : Sound start calls session) : session.buffer.Bounded := by
  obtain ⟨_, reached, _⟩ := sound.reached
  exact reached.bounded

theorem Sound.next {start : Buffer} {calls : List Call} {session : Session}
    (sound : Sound start calls session) (call : Call) :
    Sound start (calls ++ [call]) (session.next call) := by
  obtain ⟨added, step⟩ := performed sound.bounded call
  obtain ⟨earlier, reached, accounts⟩ := sound.reached
  refine ⟨⟨earlier ++ added, reached.trans step.reached, .next accounts step.adds⟩, ?_⟩
  intro answer member stopped
  rcases List.mem_append.mp member with before | last
  · exact step.reached.full (sound.full answer before stopped)
  · cases List.mem_singleton.mp last
    exact step.full stopped

theorem Sound.run {start : Buffer} {calls : List Call} {session : Session}
    (sound : Sound start calls session) (later : List Call) :
    Sound start (calls ++ later) (session.run later) := by
  induction later generalizing calls session with
  | nil => rwa [List.append_nil]
  | cons call rest ih =>
    rw [← List.singleton_append, ← List.append_assoc]
    exact ih (sound.next call)

theorem runGrows {session : Session} (bounded : session.buffer.Bounded) (calls : List Call) :
    session.buffer.sink.content <+: (session.run calls).buffer.sink.content := by
  induction calls generalizing session with
  | nil => exact List.prefix_rfl
  | cons call rest ih =>
    obtain ⟨added, step⟩ := performed bounded call
    have next : (session.next call).buffer.Bounded := step.reached.bounded
    exact step.reached.grows.trans (ih next)

theorem flushEmpties {buffer : Buffer} (bounded : buffer.Bounded)
    (went : (buffer.perform .flush).1 = .flushed (.ok ())) :
    (buffer.perform .flush).2.held = [] := by
  have flushing := flushed bounded
  simp only [perform] at went ⊢
  generalize buffer.flush = outcome at flushing went ⊢
  cases flushing with
  | done reached empty => exact empty
  | stopped reached left full => nomatch went

/-- The state after some calls. Every list of calls has one, so that this holds after each call of
a longer list. -/
structure Accounted (capacity : Nat) (limit : Option Nat) (calls : List Call) (session : Session) :
    Prop where
  bytes : Accounts calls session.answers (session.buffer.sink.content ++ session.buffer.held)
  held : session.buffer.held.length ≤ capacity
  full : ∀ answer ∈ session.answers, answer.StoppedBySink →
    limit = some session.buffer.sink.content.length
  grows : ∀ later, session.buffer.sink.content <+: (session.run later).buffer.sink.content
  flushKeeps : (session.buffer.perform .flush).2.text = session.buffer.text
  flushEmpties : (session.buffer.perform .flush).1 = .flushed (.ok ()) →
    (session.buffer.perform .flush).2.held = []

theorem sessionAccounted (capacity : Nat) (limit : Option Nat) (calls : List Call) :
    Accounted capacity limit calls (session (new capacity (Sink.empty limit)) calls) := by
  have bounded := newBounded capacity limit
  have begun : Sound (new capacity (Sink.empty limit)) [] ⟨[], new capacity (Sink.empty limit)⟩ :=
    ⟨⟨[], Extends.refl bounded, .start⟩, nofun⟩
  have sound : Sound (new capacity (Sink.empty limit)) calls
      (session (new capacity (Sink.empty limit)) calls) := begun.run calls
  generalize session (new capacity (Sink.empty limit)) calls = reached at sound ⊢
  obtain ⟨added, extension, accounts⟩ := sound.reached
  have text : reached.buffer.text = added := extension.text
  refine ⟨?bytes, ?held, ?full, runGrows sound.bounded, ?flushKeeps, flushEmpties sound.bounded⟩
  case bytes =>
    rw [← text] at accounts
    exact accounts
  case held =>
    have held := sound.bounded.held
    rw [extension.capacity] at held
    exact held
  case full =>
    intro answer member stopped
    have full := sound.full answer member stopped
    rw [Sink.Full, extension.limit] at full
    exact full
  case flushKeeps =>
    have kept := (flushPerformed sound.bounded).reached.text
    rw [List.append_nil] at kept
    exact kept

end RecordQuery.Buffer
