import Mathlib.Control.Monad.Basic
import RecordQuery.Proofs.Json.RoundTrip
import RecordQuery.Proofs.Program.Execution
import RecordQuery.Proofs.Query.Selection
import RecordQuery.Proofs.Report.Reading
import RecordQuery.Proofs.Run.Sequence

/-! The result of a run, the output file and the print-out agree, if neither the output path nor its
temporary path ends in a link and the reader restores the doubles of the selection. What was read
from a file can be stored, and so can every selection of it; so the file and JSON on the stream read
as the selection itself, and a report shows its records and their number. -/
namespace RecordQuery

theorem Json.Storable.sublist {levels : Nat} {items chosen : List Json}
    (storable : Storable levels (.array items)) (some : chosen.Sublist items) :
    Storable levels (.array chosen) := by
  cases storable with
  | array each => exact .array fun item member => each item (some.subset member)

theorem Record.readBack {reader : DoubleReader} {records : List Record}
    (storable : Json.Storable Json.maxDepth (array records))
    (restored : (array records).Restored reader) :
    readAll? reader (array records).bytes = some records := by
  rw [readAll?, array, storable.readBack restored, Option.bind_some, ofItemsIff]

theorem Disk.readRecordsIff {reader : DoubleReader} {disk : Disk} {hazards : Hazards}
    {path : String} {records : List Record} :
    disk.readRecords reader hazards path = .ok records ↔
      ∃ content, disk.fetch hazards path = .ok content ∧
        Record.readAll? reader content = some records := by
  unfold readRecords
  cases disk.fetch hazards path with
  | error cause => simp
  | ok content => cases found : Record.readAll? reader content <;> simp [found]

namespace Settings

variable {reader : DoubleReader} {settings : Settings} {disk : Disk} {hazards : Hazards}
  {records selection : List Record}

theorem recordsStorable (loaded : settings.records reader disk hazards = .ok records) :
    Json.Storable Json.maxDepth (Record.array records) := by
  obtain ⟨content, _, read⟩ := Disk.readRecordsIff.mp (Result.mapErrorOk.mp loaded)
  obtain ⟨items, array, objects⟩ := Option.bind_eq_some_iff.mp read
  have storable := Json.readArrayStorable array
  rwa [Record.ofItemsIff.mp objects] at storable

theorem selectStorable (selected : settings.select reader disk hazards = .ok selection) :
    Json.Storable Json.maxDepth (Record.array selection) := by
  obtain ⟨query, _, selected⟩ := Result.bindOk.mp selected
  obtain ⟨records, loaded, selected⟩ := Result.bindOk.mp selected
  split at selected
  · rename_i found
    cases selected
    exact (recordsStorable loaded).sublist ((Query.selectSublist found).map Record.toJson)
  · nomatch selected

theorem runReadBack (direct : disk.Direct settings.output)
    (went : (settings.run reader disk hazards).1 = .ok selection)
    (restored : (Record.array selection).Restored reader) :
    (disk.applyAll (settings.run reader disk hazards).2).readRecords reader .absent
      settings.output = .ok selection := by
  have read := Disk.readIff.mpr (runHolds direct went)
  have storable := selectStorable (runSelects went)
  exact Disk.readRecordsIff.mpr ⟨_, read, Record.readBack storable restored⟩

end Settings

namespace Report

inductive Tells (reader : DoubleReader) (template : String) (records : List Record)
    (text : List Char) : Format → Prop where
  | text (shows : Shows template records text) : Tells reader template records text .text
  | json (read : Record.readAll? reader (Text.encode (String.ofList text)) = some records) :
      Tells reader template records text .json

theorem printTells {reader : DoubleReader} {records : List Record}
    (storable : Json.Storable Json.maxDepth (Record.array records))
    (restored : (Record.array records).Restored reader) (format : Format)
    (appearance : Appearance) (shows : Bool) :
    Tells reader appearance.template records (print format appearance shows records) format := by
  cases format with
  | text => exact .text (textShows appearance shows records)
  | json => exact .json (jsonRead storable restored)

end Report

structure Agreed (reader : DoubleReader) (settings : Settings) (format : Format)
    (template : String) (disk : Disk) (hazards : Hazards) (stdout : Sink) (execution : Execution)
    (records : List Record) : Prop where
  returned : (settings.run reader disk hazards).1 = .ok records
  stored : (disk.applyAll execution.changes).readRecords reader .absent settings.output =
    .ok records
  printed : ∃ text, execution.stdout.content = stdout.content ++ Text.encode (String.ofList text) ∧
    Report.Tells reader template records text format

theorem Settings.performAgrees (reader : DoubleReader) (settings : Settings) (format : Format)
    (appearance : Appearance) (shows : Bool) {disk : Disk} (direct : disk.Direct settings.output)
    (hazards : Hazards) (stdout : Sink)
    (done : (settings.perform reader format appearance shows disk hazards stdout).result = .ok ())
    (restored : ∀ records, (settings.run reader disk hazards).1 = .ok records →
      (Record.array records).Restored reader) :
    ∃ records, Agreed reader settings format appearance.template disk hazards stdout
      (settings.perform reader format appearance shows disk hazards stdout) records := by
  have performed := settings.performed reader format appearance shows disk hazards stdout
  generalize settings.perform reader format appearance shows disk hazards stdout = execution
    at performed done ⊢
  cases performed with
  | failed stopped => nomatch done
  | cut went split left => nomatch done
  | @done records went =>
    have storable := selectStorable (runSelects went)
    refine ⟨records, went, ?_, _, rfl, ?_⟩
    · rw [Execution.changes, Effect.changesPrinted]
      exact runReadBack direct went (restored records went)
    · exact Report.printTells storable (restored records went) format appearance shows

def nestedInput : Bytes := Text.encode
  "[\x7b\"city\":\"A\\nB\",\"number\":1.50\x7d, \x7b\"number\":[[],\x7b\x7d],\"city\":-0\x7d]"

theorem Settings.performAgreesNested :
    let settings : Settings := ⟨"all", "in.json", "out.json", .lenient⟩
    let disk : Disk := ⟨[(["in.json"], .file nestedInput)], []⟩
    let appearance : Appearance := ⟨true, "\x7bcity\x7d\x7b\x7d"⟩
    let text := settings.perform .nearest .text appearance true disk .absent (.empty none)
    let json := settings.perform .nearest .json appearance true disk .absent (.empty none)
    disk.LinkFree ∧
      (∀ records, (settings.run .nearest disk .absent).1 = .ok records →
        (Record.array records).Restored .nearest) ∧
      (text.result = .ok () ∧ ∃ records, Agreed .nearest settings .text appearance.template disk
        .absent (.empty none) text records) ∧
      json.result = .ok () ∧ ∃ records, Agreed .nearest settings .json appearance.template disk
        .absent (.empty none) json records := by
  intro settings disk appearance text json
  have free : disk.LinkFree := by decide +kernel
  have textDone : text.result = .ok () := by decide +kernel
  have jsonDone : json.result = .ok () := by decide +kernel
  have restored : ∀ records, (settings.run .nearest disk .absent).1 = .ok records →
      (Record.array records).Restored .nearest :=
    fun records went => (selectStorable (runSelects went)).restoredNearest
  have direct := free.direct settings.output
  refine ⟨free, restored, ⟨textDone, ?_⟩, jsonDone, ?_⟩
  · exact performAgrees .nearest settings .text appearance true direct .absent _ textDone restored
  · exact performAgrees .nearest settings .json appearance true direct .absent _ jsonDone restored

/-- A link at the temporary path that leads to the output file leads to itself when it is moved
there. A link at the output path is replaced by the file, though the path may still go through it. -/
theorem Settings.performDisagreesAtLink :
    let perform (output : String) (disk : Disk) : Execution :=
      Settings.perform .nearest ⟨"all", "in.json", output, .lenient⟩ .text ⟨false, ""⟩ false disk
        .absent (.empty none)
    let beside : Disk := ⟨[(["in.json"], .file (Text.encode "[\x7b\x7d]")),
      (["out.json.tmp"], .link "out.json")], []⟩
    let itself : Disk := ⟨[(["in.json"], .file (Text.encode "[\x7b\x7d]")), (["sub"], .directory),
      (["out"], .link "sub")], []⟩
    ∀ given ∈ [("out.json", beside), ("out/../out", itself)],
      (perform given.1 given.2).result = .ok () ∧
        ∀ records, ¬ Agreed .nearest ⟨"all", "in.json", given.1, .lenient⟩ .text "" given.2 .absent
          (.empty none) (perform given.1 given.2) records := by
  intro perform beside itself given member
  have unreadable : (perform given.1 given.2).result = .ok () ∧
      ((given.2.applyAll (perform given.1 given.2).changes).readRecords .nearest .absent
        given.1).isOk = false := by
    revert given
    decide +kernel
  refine ⟨unreadable.1, fun records agreed => ?_⟩
  have refused := unreadable.2
  rw [agreed.stored] at refused
  nomatch refused

end RecordQuery
