import RecordQuery.Proofs.Query.Selection
import RecordQuery.Proofs.Record
import RecordQuery.Proofs.Storage.Replacement
import RecordQuery.Run

/-! The stages of a run and the order of their failures. Nothing is written before the selection
is known, and then the output file is replaced at once or stays, if neither its path nor its
temporary path ends in a link. -/
namespace RecordQuery.Settings

variable {reader : DoubleReader} {settings : Settings} {disk : Disk} {hazards : Hazards}

theorem runStops {cause : RunError}
    (stopped : settings.select reader disk hazards = .error cause) :
    settings.run reader disk hazards = (.error cause, []) := by
  simp only [run, stopped]

theorem runWrites {selection : List Record}
    (found : settings.select reader disk hazards = .ok selection) :
    ∃ outcome, outcome = disk.replace hazards settings.output
        (selection.map fun record => .value record.toJson) ∧
      settings.run reader disk hazards =
        ((outcome.1.mapError .write).map fun _ => selection, outcome.2) := by
  refine ⟨_, rfl, ?_⟩
  simp only [run, found]
  rcases disk.replace hazards settings.output _ with ⟨cause | ⟨⟩, changes⟩
  · rfl
  · rfl

theorem runReplaces {selection : List Record}
    (direct : disk.Direct settings.output)
    (found : settings.select reader disk hazards = .ok selection) :
    ∃ items outcome, Disk.Replaced disk hazards settings.output items outcome ∧
      (settings.run reader disk hazards).2 = outcome.2 := by
  obtain ⟨outcome, same, ran⟩ := runWrites found
  exact ⟨_, outcome, same ▸ Disk.replaced direct hazards _, by rw [ran]⟩

inductive Delivered (disk : Disk) (output : String) (selection : List Record) :
    Except RunError (List Record) × List Change → Prop where
  | failed {cause changes}
      (kept : disk.Direct output → (disk.applyAll changes).look? output = disk.look? output) :
      Delivered disk output selection (.error (.write cause), changes)
  | done {changes}
      (holds : disk.Direct output → (disk.applyAll changes).look? output =
        some (.file (Record.array selection).bytes)) :
      Delivered disk output selection (.ok selection, changes)

theorem valuesOfRecords {selection : List Record} {values : List Json}
    (same : (selection.map fun record => Item.value record.toJson) = values.map .value) :
    Json.array values = Record.array selection := by
  have plain : (selection.map Record.toJson).map Item.value = values.map .value := by
    rw [List.map_map]
    exact same
  rw [Record.array, (List.map_inj_right fun _ _ => Item.value.inj).mp plain]

theorem runDelivers {selection : List Record}
    (found : settings.select reader disk hazards = .ok selection) :
    Delivered disk settings.output selection (settings.run reader disk hazards) := by
  obtain ⟨outcome, replaced, same⟩ := runWrites found
  have atOnce (direct : disk.Direct settings.output) :
      Disk.Replaced disk hazards settings.output _ outcome := replaced ▸ Disk.replaced direct hazards _
  rw [same]
  rcases outcome with ⟨cause | ⟨⟩, changes⟩
  · refine .failed fun direct => ?_
    cases atOnce direct with
    | failed _ beside cleared => exact beside.targetKept direct
  · refine .done fun direct => ?_
    generalize given : (Except.ok (), changes) = outcome at atOnce
    cases atOnce direct with
    | failed => nomatch given
    | done moves =>
      cases given
      obtain ⟨values, items, holds⟩ := moves.holds
      rwa [valuesOfRecords items] at holds

end RecordQuery.Settings
