import RecordQuery.Proofs.Storage.Change
import RecordQuery.Proofs.Storage.Delivery

/-! Replacing a file at once or not at all, where neither the path of the file nor its temporary
path ends in a link. Only the last change of a replacement that goes well concerns the target; all
others, and all those of one that fails, concern the temporary file. -/
namespace RecordQuery.Disk

variable {disk : Disk} {hazards : Hazards} {target : String} {items : List Item} {values : List Json}
  {source destination : Place} {changes : List Change}
  {outcome : Except WriteError Unit × List Change}

structure Direct (disk : Disk) (target : String) : Prop where
  itself : disk.Unlinked target
  beside : disk.Unlinked (temporary target)

instance (disk : Disk) (target : String) : Decidable (disk.Direct target) :=
  decidable_of_iff (disk.Unlinked target ∧ disk.Unlinked (temporary target))
    ⟨fun both => ⟨both.1, both.2⟩, fun direct => ⟨direct.itself, direct.beside⟩⟩

theorem LinkFree.direct (free : disk.LinkFree) (target : String) : disk.Direct target :=
  ⟨free.unlinked target, free.unlinked (temporary target)⟩

theorem Direct.stable {before after : Disk} (same : SameWays before after)
    (direct : before.Direct target) : after.Direct target :=
  ⟨direct.itself.stable same, direct.beside.stable same⟩

def Beside (disk : Disk) (target : String) (place : Place) : Prop :=
  disk.slot? (temporary target) = some place ∧ disk.Free place

def AllBeside (disk : Disk) (target : String) (changes : List Change) : Prop :=
  ∀ change ∈ changes, ∀ place ∈ change.places, disk.Beside target place

theorem AllBeside.ways (beside : AllBeside disk target changes) :
    SameWays disk (disk.applyAll changes) :=
  applyAllWays fun change member place own => (beside change member place own).2

theorem AllBeside.kept (beside : AllBeside disk target changes) {place : Place}
    (other : disk.slot? (temporary target) ≠ some place) :
    (disk.applyAll changes).node? place = disk.node? place :=
  applyAllOthers disk changes fun change member own => other (beside change member place own).1

theorem AllBeside.targetKept (beside : AllBeside disk target changes)
    (direct : disk.Direct target) :
    (disk.applyAll changes).look? target = disk.look? target :=
  lookStable beside.ways fun _ found =>
    beside.kept (temporarySlot direct.itself direct.beside found)

theorem AllBeside.interrupted (beside : AllBeside disk target changes) {made : List Change}
    (interrupted : Interrupted changes made) : AllBeside disk target made := by
  intro change member place own
  obtain ⟨original, found, same⟩ := interrupted.places member
  exact beside original found place (same ▸ own)

theorem AllBeside.append {later : List Change} (beside : AllBeside disk target changes)
    (besideLater : AllBeside (disk.applyAll changes) target later) :
    AllBeside disk target (changes ++ later) := by
  intro change member place own
  rcases List.mem_append.mp member with inside | inside
  · exact beside change inside place own
  · obtain ⟨reached, free⟩ := besideLater change inside place own
    exact ⟨(slotStable beside.ways _).symm.trans reached, beside.ways.free.mpr free⟩

def writing (source : Place) (bytes : Bytes) : List Change :=
  [.created source, .appended source bytes]

theorem writingBeside (beside : disk.Beside target source) (bytes : Bytes) :
    AllBeside disk target (writing source bytes) := by
  intro change member place own
  have here : place = source := by
    rcases List.mem_cons.mp member with rfl | second
    · exact List.mem_singleton.mp own
    · cases List.mem_singleton.mp second
      exact List.mem_singleton.mp own
  exact here ▸ beside

theorem applyWriting (disk : Disk) (below : source ≠ []) (bytes : Bytes) :
    (disk.applyAll (writing source bytes)).node? source = some (.file bytes) := by
  have empty : (disk.put source (.file [])).node? source = some (.file []) :=
    nodePutSame disk below _
  simp only [applyAll, writing, List.foldl_cons, List.foldl_nil, apply, empty, List.nil_append]
  exact nodePutSame _ below _

theorem cleanUpBeside (unlinked : disk.Unlinked (temporary target)) (hazards : Hazards) :
    AllBeside disk target (disk.cleanUp hazards (temporary target)) := by
  intro change member place own
  unfold cleanUp at member
  split at member
  · rename_i removed _ found
    cases List.mem_singleton.mp member
    cases List.mem_singleton.mp own
    obtain ⟨beside, content, here⟩ := (removalIff unlinked).mp found
    exact ⟨beside, freeOf (by simp [here]) (by simp [here])⟩
  · nomatch member

theorem cleanUpClears {path : String} (unlinked : disk.Unlinked path)
    (removable : hazards.removing = none) (content : Bytes) :
    (disk.applyAll (disk.cleanUp hazards path)).look? path ≠ some (.file content) := by
  intro shown
  unfold cleanUp at shown
  split at shown
  · rename_i removed _ found
    obtain ⟨leads, content, here⟩ := (removalIff unlinked).mp found
    have free : disk.Free removed := freeOf (by simp [here]) (by simp [here])
    have gone : (disk.remove removed).node? removed = none := by
      rw [nodeRemove disk (freeBelow free), if_pos rfl]
    have cleared := lookNothing ((slotStable (removeWays free) path).trans leads) gone
    exact nomatch cleared.symm.trans shown
  · rename_i stays
    obtain ⟨place, found, here⟩ := lookFile.mp shown
    exact stays place removable ((removalIff unlinked).mpr ⟨found, content, here⟩)

structure Moves (disk : Disk) (target : String) (items : List Item) (values : List Json)
    (source destination : Place) : Prop where
  direct : disk.Direct target
  beside : disk.Beside target source
  reached : disk.slot? target = some destination
  free : disk.Free destination
  values : items = values.map .value

def moving (source destination : Place) (values : List Json) : List Change :=
  writing source (Json.array values).bytes ++ [.moved source destination]

theorem Moves.writingBeside (moves : Moves disk target items values source destination) :
    AllBeside disk target (writing source (Json.array values).bytes) :=
  Disk.writingBeside moves.beside (Json.array values).bytes

theorem Moves.apart (moves : Moves disk target items values source destination) :
    destination ≠ source := by
  intro same
  subst same
  exact temporarySlot moves.direct.itself moves.direct.beside moves.reached moves.beside.1

theorem Moves.complete (moves : Moves disk target items values source destination) :
    SameWays disk (disk.applyAll (moving source destination values)) ∧
      (disk.applyAll (moving source destination values)).node? destination =
        some (.file (Json.array values).bytes) ∧
      (disk.applyAll (moving source destination values)).node? source = none := by
  have written := moves.writingBeside.ways
  have sourceFree := moves.beside.2
  have here := applyWriting disk (freeBelow sourceFree) (Json.array values).bytes
  have free : ∀ place ∈ (Change.moved source destination).places,
      (disk.applyAll (writing source (Json.array values).bytes)).Free place := by
    intro place own
    rcases List.mem_cons.mp own with rfl | second
    · exact written.free.mp sourceFree
    · cases List.mem_singleton.mp second
      exact written.free.mp moves.free
  rw [moving, applyAllAppend]
  exact ⟨written.trans (applyWays free),
    applyMoved here (freeBelow sourceFree) (freeBelow moves.free) moves.apart⟩

def Holds (disk : Disk) (path : String) (items : List Item) : Prop :=
  ∃ values : List Json, items = values.map .value ∧
    disk.look? path = some (.file (Json.array values).bytes)

theorem Moves.holds (moves : Moves disk target items values source destination) :
    Holds (disk.applyAll (moving source destination values)) target items := by
  obtain ⟨same, whole, _⟩ := moves.complete
  exact ⟨values, moves.values,
    lookFile.mpr ⟨destination, (slotStable same target).trans moves.reached, whole⟩⟩

theorem Moves.gone (moves : Moves disk target items values source destination) :
    (disk.applyAll (moving source destination values)).look? (temporary target) = none := by
  obtain ⟨same, _, gone⟩ := moves.complete
  exact lookNothing ((slotStable same _).trans moves.beside.1) gone

inductive Attempted (disk : Disk) (target : String) (items : List Item) :
    Except WriteError Unit × List Change → Prop where
  | done {source destination : Place} {values : List Json}
      (moves : Moves disk target items values source destination) :
      Attempted disk target items (.ok (), moving source destination values)
  | failed {cause : WriteError} {changes : List Change} (beside : AllBeside disk target changes) :
      Attempted disk target items (.error cause, changes)

theorem hazardBefore {α : Type} {hazard : Option IoError} {result : Except IoError α} {value : α}
    (passed : Hazards.before hazard result = .ok value) : result = .ok value := by
  cases hazard with
  | none => exact passed
  | some cause => nomatch passed

theorem hazardAfterwards {hazards : Hazards} {written : Except WriteError Unit}
    (passed : hazards.afterwards written = .ok ()) : written = .ok () := by
  unfold Hazards.afterwards at passed
  split at passed
  · rfl
  · exact passed

theorem moveSource {path other : String} {change : Change}
    (moved : disk.move path other = .ok change) : ∃ source destination,
      disk.source path = .ok source ∧ disk.destination other = .ok destination ∧
        change = .moved source destination := by
  obtain ⟨source, origin, later⟩ := Result.bindOk.mp moved
  obtain ⟨destination, reached, same⟩ := Result.mapOk.mp later
  exact ⟨source, destination, origin, reached, same.symm⟩

theorem attempted (direct : disk.Direct target) (hazards : Hazards) (items : List Item) :
    Attempted disk target items (disk.attemptReplace hazards target items) := by
  unfold attemptReplace
  split
  · exact .failed nofun
  rename_i source created
  have beside : disk.Beside target source := creationPlace (hazardBefore created)
  have confined := writingBeside beside
    (Buffer.deliver Buffer.defaultCapacity (Sink.empty hazards.room) items).2.content
  dsimp only
  split
  · exact .failed confined
  rename_i passed
  split
  · exact .failed confined
  rename_i change moved
  obtain ⟨values, same, whole⟩ :=
    Buffer.deliverWhole (Sink.emptyWithin _) (Prod.ext (hazardAfterwards passed) rfl)
  rw [whole] at confined moved ⊢
  -- Both places are looked for after the writing, which changed no way to them.
  have written := direct.stable confined.ways
  obtain ⟨origin, destination, found, reached, rfl⟩ := moveSource (hazardBefore moved)
  have begun := (slotStable confined.ways _).symm.trans (sourcePlace written.beside found)
  cases Option.some.inj (begun.symm.trans beside.1)
  obtain ⟨ends, free⟩ := destinationPlace written.itself reached
  have leads := slotStable confined.ways target
  exact .done ⟨direct, beside, leads.symm.trans ends, confined.ways.free.mpr free, same⟩

inductive Replaced (disk : Disk) (hazards : Hazards) (target : String) (items : List Item) :
    Except WriteError Unit × List Change → Prop where
  | done {source destination : Place} {values : List Json}
      (moves : Moves disk target items values source destination) :
      Replaced disk hazards target items (.ok (), moving source destination values)
  | failed {cause : WriteError} {changes : List Change} (direct : disk.Direct target)
      (beside : AllBeside disk target changes)
      (cleared : hazards.removing = none → ∀ content,
        (disk.applyAll changes).look? (temporary target) ≠ some (.file content)) :
      Replaced disk hazards target items (.error cause, changes)

theorem replaced (direct : disk.Direct target) (hazards : Hazards) (items : List Item) :
    Replaced disk hazards target items (disk.replace hazards target items) := by
  have source := attempted direct hazards items
  unfold replace
  split
  · rename_i changes attempt
    rw [attempt] at source
    cases source with
    | done moves => exact .done moves
  · rename_i cause changes attempt
    rw [attempt] at source
    cases source with
    | failed beside =>
      have unlinked := (direct.stable beside.ways).beside
      refine .failed direct (beside.append (cleanUpBeside unlinked hazards)) fun removable => ?_
      rw [applyAllAppend]
      exact cleanUpClears unlinked removable

def Owns (disk : Disk) (target : String) (place : Place) : Prop :=
  disk.slot? target = some place ∨ disk.slot? (temporary target) = some place

theorem Replaced.owned (replaced : Replaced disk hazards target items outcome) {change : Change}
    (member : change ∈ outcome.2) {place : Place} (own : place ∈ change.places) :
    disk.Owns target place := by
  cases replaced with
  | failed direct beside cleared => exact .inr (beside change member place own).1
  | done moves =>
    rcases List.mem_append.mp member with first | last
    · exact .inr (moves.writingBeside change first place own).1
    · cases List.mem_singleton.mp last
      rcases List.mem_cons.mp own with rfl | second
      · exact .inr moves.beside.1
      · cases List.mem_singleton.mp second
        exact .inl moves.reached

theorem Replaced.elsewhere (replaced : Replaced disk hazards target items outcome) {made : List Change}
    (interrupted : Interrupted outcome.2 made) {place : Place}
    (foreign : ¬ disk.Owns target place) :
    (disk.applyAll made).node? place = disk.node? place := by
  apply applyAllOthers
  intro change member own
  obtain ⟨original, found, same⟩ := interrupted.places member
  exact foreign (replaced.owned found (same ▸ own))

theorem Replaced.ways (replaced : Replaced disk hazards target items outcome) :
    SameWays disk (disk.applyAll outcome.2) := by
  cases replaced with
  | done moves => exact moves.complete.1
  | failed direct beside cleared => exact beside.ways

theorem Replaced.keeps (replaced : Replaced disk hazards target items outcome) {path : String}
    {content : Bytes} (file : disk.look? path = some (.file content))
    (apart : disk.slot? path ≠ disk.slot? target)
    (beside : disk.slot? path ≠ disk.slot? (temporary target)) :
    (disk.applyAll outcome.2).look? path = some (.file content) := by
  obtain ⟨place, found, here⟩ := lookFile.mp file
  rw [found] at apart beside
  have foreign : ¬ disk.Owns target place := by
    intro owns
    rcases owns with own | own
    · exact apart own.symm
    · exact beside own.symm
  have kept := replaced.elsewhere (Interrupted.all outcome.2) foreign
  exact lookFile.mpr ⟨place, (slotStable replaced.ways path).trans found, kept.trans here⟩

/-- Wherever the changes stop, the target shows what it showed before or the whole array. -/
structure AtOnce (disk : Disk) (hazards : Hazards) (target : String) (items : List Item)
    (outcome : Except WriteError Unit × List Change) : Prop where
  always : ∀ made, Interrupted outcome.2 made →
    (disk.applyAll made).look? target = disk.look? target ∨
      Holds (disk.applyAll made) target items
  elsewhere : ∀ made, Interrupted outcome.2 made → ∀ place, ¬ disk.Owns target place →
    (disk.applyAll made).node? place = disk.node? place
  done : outcome.1 = .ok () →
    Holds (disk.applyAll outcome.2) target items ∧
      (disk.applyAll outcome.2).look? (temporary target) = none
  failed : ∀ cause, outcome.1 = .error cause →
    (disk.applyAll outcome.2).look? target = disk.look? target ∧
      (hazards.removing = none → ∀ content,
        (disk.applyAll outcome.2).look? (temporary target) ≠ some (.file content))

theorem replaceAtOnce {disk : Disk} {target : String} (direct : disk.Direct target)
    (hazards : Hazards) (items : List Item) :
    AtOnce disk hazards target items (disk.replace hazards target items) := by
  have source := replaced direct hazards items
  generalize disk.replace hazards target items = outcome at source ⊢
  have elsewhere : ∀ made, Interrupted outcome.2 made → ∀ place, ¬ disk.Owns target place →
      (disk.applyAll made).node? place = disk.node? place :=
    fun _ interrupted _ foreign => source.elsewhere interrupted foreign
  cases source with
  | done moves =>
    refine ⟨?_, elsewhere, fun _ => ⟨moves.holds, moves.gone⟩, nofun⟩
    intro made interrupted
    -- Before its last change the target is as it was, and with it the target is complete.
    rcases interrupted.beforeMove with rfl | sooner
    · exact .inr moves.holds
    · exact .inl ((moves.writingBeside.interrupted sooner).targetKept direct)
  | failed _ beside cleared =>
    refine ⟨?_, elsewhere, nofun, fun _ _ => ⟨beside.targetKept direct, cleared⟩⟩
    intro made interrupted
    exact .inl ((beside.interrupted interrupted).targetKept direct)

theorem replaceAtOnceThroughLink :
    let disk : Disk := ⟨[(["out"], .link "data/"), (["data"], .directory),
      (["data", "out.json"], .file (Text.encode "[]")),
      (["data", "out.json.tmp"], .file (Text.encode "stale"))], []⟩
    let hazards : Hazards := { Hazards.absent with moving := some .full }
    let items : List Item := [.value .null]
    disk.Direct "out/out.json" ∧
      AtOnce disk .absent "out/out.json" items (disk.replace .absent "out/out.json" items) ∧
      AtOnce disk hazards "out/out.json" items (disk.replace hazards "out/out.json" items) := by
  intro disk hazards items
  have direct : disk.Direct "out/out.json" := by decide +kernel
  exact ⟨direct, replaceAtOnce direct .absent items, replaceAtOnce direct hazards items⟩

example : (replace ⟨[], []⟩ .absent "out.json" [.value (.bool true)]).2 =
    [.created ["out.json.tmp"], .appended ["out.json.tmp"] (Text.encode "[true]"),
      .moved ["out.json.tmp"] ["out.json"]] := by
  decide +kernel

end RecordQuery.Disk
