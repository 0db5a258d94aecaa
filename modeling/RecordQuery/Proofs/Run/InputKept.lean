import RecordQuery.Proofs.Run.Stages

/-! A run leaves its input file alone. It owns two places at most: that of its output file and that
of the temporary file beside it. An input file at neither is kept whatever happens; one at the
place of the temporary file may be lost. -/
namespace RecordQuery.Settings

variable {reader : DoubleReader} {settings : Settings} {disk : Disk}

theorem inputKept {content : Bytes} (direct : disk.Direct settings.output) (hazards : Hazards)
    (input : disk.look? settings.input = some (.file content))
    (apart : disk.slot? settings.input ≠ disk.slot? settings.output)
    (beside : disk.slot? settings.input ≠ disk.slot? (Disk.temporary settings.output)) :
    (disk.applyAll (settings.run reader disk hazards).2).look? settings.input =
      some (.file content) := by
  cases selected : settings.select reader disk hazards with
  | error cause =>
    rw [runStops selected]
    exact input
  | ok selection =>
    obtain ⟨items, outcome, replaced, changes⟩ := runReplaces direct selected
    rw [changes]
    exact replaced.keeps input apart beside

theorem inputKeptBeside :
    let settings : Settings := ⟨"all", "in.json", "out.json", .lenient⟩
    let disk : Disk := ⟨[(["in.json"], .file (Text.encode "[]"))], []⟩
    disk.LinkFree ∧ disk.look? settings.input = some (.file (Text.encode "[]")) ∧
      disk.slot? settings.input ≠ disk.slot? settings.output ∧
      disk.slot? settings.input ≠ disk.slot? (Disk.temporary settings.output) ∧
      (disk.applyAll (settings.run .nearest disk .absent).2).look? settings.input =
        some (.file (Text.encode "[]")) := by
  intro settings disk
  have free : disk.LinkFree := by decide +kernel
  have input : disk.look? settings.input = some (.file (Text.encode "[]")) := by decide +kernel
  have apart : disk.slot? settings.input ≠ disk.slot? settings.output := by decide +kernel
  have beside : disk.slot? settings.input ≠ disk.slot? (Disk.temporary settings.output) := by
    decide +kernel
  exact ⟨free, input, apart, beside, inputKept (free.direct _) .absent input apart beside⟩

theorem inputLostAtTemporary :
    ¬ ∀ (reader : DoubleReader) (settings : Settings) (disk : Disk) (hazards : Hazards)
        (content : Bytes), disk.LinkFree →
      disk.look? settings.input = some (.file content) →
      disk.slot? settings.input ≠ disk.slot? settings.output →
      (disk.applyAll (settings.run reader disk hazards).2).look? settings.input =
        some (.file content) := by
  intro kept
  have lost := kept .nearest ⟨"all", "out.json.tmp", "out.json", .lenient⟩
    ⟨[(["out.json.tmp"], .file (Text.encode "[]"))], []⟩ .absent (Text.encode "[]")
    (by decide +kernel) (by decide +kernel) (by decide +kernel)
  exact absurd lost (by decide +kernel)

end RecordQuery.Settings
