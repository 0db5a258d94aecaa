import RecordQuery.Proofs.Run.Stages

/-! Runs one after another with the same output file. Each may read what an earlier one wrote, and
any of them may fail; the output file shows the selection of the last one that did not. -/
namespace RecordQuery

structure Job where
  query : String
  input : String
  strictness : Strictness
  hazards : Hazards

def Job.settings (job : Job) (output : String) : Settings :=
  ⟨job.query, job.input, output, job.strictness⟩

def Job.run (reader : DoubleReader) (job : Job) (output : String) (disk : Disk) :
    Except RunError (List Record) × List Change :=
  (job.settings output).run reader disk job.hazards

structure History where
  results : List (Except RunError (List Record))
  disk : Disk

def History.next (reader : DoubleReader) (output : String) (history : History) (job : Job) :
    History :=
  ⟨history.results ++ [(job.run reader output history.disk).1],
    history.disk.applyAll (job.run reader output history.disk).2⟩

def runAll (reader : DoubleReader) (output : String) (disk : Disk) (jobs : List Job) : History :=
  jobs.foldl (History.next reader output) ⟨[], disk⟩

def shown (selection : List Record) : Node := .file (Record.array selection).bytes

def lastShown (before : Option Node) (results : List (Except RunError (List Record))) :
    Option Node :=
  match (results.filterMap Except.toOption).getLast? with
  | some selection => some (shown selection)
  | none => before

theorem lastShownNext (before : Option Node) (results : List (Except RunError (List Record)))
    (result : Except RunError (List Record)) :
    lastShown before (results ++ [result]) =
      match result with
      | .ok selection => some (shown selection)
      | .error _ => lastShown before results := by
  cases result with
  | ok selection => simp [lastShown, Except.toOption]
  | error cause => simp [lastShown, Except.toOption]

namespace Settings

variable {reader : DoubleReader} {settings : Settings} {disk : Disk} {hazards : Hazards}
  {selection : List Record} {cause : RunError}

theorem runShows (reader : DoubleReader) (settings : Settings) (hazards : Hazards)
    (direct : disk.Direct settings.output) :
    (disk.applyAll (settings.run reader disk hazards).2).look? settings.output =
      match (settings.run reader disk hazards).1 with
      | .ok selection => some (shown selection)
      | .error _ => disk.look? settings.output := by
  cases selected : settings.select reader disk hazards with
  | error cause =>
    rw [runStops selected]
    rfl
  | ok selection =>
    have delivered := runDelivers selected
    generalize settings.run reader disk hazards = outcome at delivered ⊢
    cases delivered with
    | failed kept => exact kept direct
    | done holds => exact holds direct

theorem runHolds (direct : disk.Direct settings.output)
    (went : (settings.run reader disk hazards).1 = .ok selection) :
    (disk.applyAll (settings.run reader disk hazards).2).look? settings.output =
      some (shown selection) := by
  rw [runShows reader settings hazards direct, went]

theorem runSelects (went : (settings.run reader disk hazards).1 = .ok selection) :
    settings.select reader disk hazards = .ok selection := by
  cases selected : settings.select reader disk hazards with
  | error cause =>
    rw [runStops selected] at went
    nomatch went
  | ok found =>
    have delivered := runDelivers selected
    generalize settings.run reader disk hazards = outcome at delivered went
    cases delivered with
    | failed kept => nomatch went
    | done holds =>
      cases went
      rfl

theorem runDirect (reader : DoubleReader) (settings : Settings) (hazards : Hazards)
    (direct : disk.Direct settings.output) :
    (disk.applyAll (settings.run reader disk hazards).2).Direct settings.output := by
  cases selected : settings.select reader disk hazards with
  | error cause =>
    rw [runStops selected]
    exact direct
  | ok selection =>
    obtain ⟨items, outcome, replaced, changes⟩ := runReplaces direct selected
    rw [changes]
    exact direct.stable replaced.ways

end Settings

namespace History

structure Shows (output : String) (before : Option Node) (history : History) : Prop where
  direct : history.disk.Direct output
  shown : history.disk.look? output = lastShown before history.results

variable {reader : DoubleReader} {output : String} {before : Option Node} {history : History}

theorem Shows.next (shows : Shows output before history) (job : Job) :
    Shows output before (history.next reader output job) := by
  refine ⟨Settings.runDirect reader (job.settings output) job.hazards shows.direct, ?_⟩
  have after := Settings.runShows reader (job.settings output) job.hazards shows.direct
  rw [History.next, lastShownNext, ← shows.shown]
  exact after

theorem Shows.run (shows : Shows output before history) (jobs : List Job) :
    Shows output before (jobs.foldl (History.next reader output) history) := by
  induction jobs generalizing history with
  | nil => exact shows
  | cons job rest ih => exact ih (shows.next job)

/-- After any runs. Every list of jobs has such a state, so that this holds after each run of a
longer list; the run after it that goes well selects from the records its input has by then. -/
structure Kept (reader : DoubleReader) (output : String) (disk : Disk) (history : History) :
    Prop where
  shown : history.disk.look? output = lastShown (disk.look? output) history.results
  selected : ∀ (job : Job) (selection : List Record),
    (job.run reader output history.disk).1 = .ok selection →
    (job.settings output).select reader history.disk job.hazards = .ok selection

theorem outputKept (reader : DoubleReader) {output : String} {disk : Disk}
    (direct : disk.Direct output) (jobs : List Job) :
    Kept reader output disk (runAll reader output disk jobs) := by
  have begun : Shows output (disk.look? output) ⟨[], disk⟩ := ⟨direct, rfl⟩
  refine ⟨(begun.run jobs).shown, ?_⟩
  intro job selection went
  exact Settings.runSelects went

theorem outputKeptAfterFailure :
    let disk : Disk := ⟨[(["in.json"], .file (Text.encode "[\x7b\"a\":1\x7d, \x7b\x7d]")),
      (["out.json.tmp"], .file (Text.encode "stale"))], []⟩
    let jobs : List Job := [⟨"all", "in.json", .lenient, .absent⟩,
      ⟨"first", "in.json", .lenient, { Hazards.absent with moving := some .full }⟩,
      ⟨"last", "out.json", .strict, .absent⟩]
    disk.LinkFree ∧
      (runAll .nearest "out.json" disk jobs).results.map Except.isOk = [true, false, true] ∧
      Kept .nearest "out.json" disk (runAll .nearest "out.json" disk jobs) := by
  intro disk jobs
  have free : disk.LinkFree := by decide +kernel
  exact ⟨free, by decide +kernel, outputKept .nearest (free.direct "out.json") jobs⟩

end History
end RecordQuery
