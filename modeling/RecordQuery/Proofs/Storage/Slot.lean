import RecordQuery.Proofs.Storage.Path
import RecordQuery.Proofs.Storage.Route
import RecordQuery.Storage.Replacement

/-! What paths show, and which places the operations on them concern. For a path that does not end
in a link these are all one place, and its temporary path has another. -/
namespace RecordQuery.Disk

structure EntrySource (path name : String) : Prop where
  last : (steps path).getLast? = some name
  named : IsName name

theorem entrySource {disk : Disk} {path name : String} {parent : Place} {slash : Bool}
    (located : disk.locate path = .ok (.entry parent name slash)) :
    EntrySource path name := by
  obtain ⟨last, final, named, same⟩ := (routesIff.mp located).resolves.ofEntry.last
  cases same rfl
  exact ⟨final, named⟩

def slot? (disk : Disk) (path : String) : Option Place :=
  match disk.reach path with
  | .ok (.entry parent name false) => some (parent ++ [name])
  | _ => none

/-- The file or directory at the end of a path; after a slash there is only a directory. -/
def look? (disk : Disk) (path : String) : Option Node :=
  match disk.reach path with
  | .ok .directory => some .directory
  | .ok (.entry parent name slash) =>
    (disk.node? (parent ++ [name])).filter fun node => !slash || node == .directory
  | .error _ => none

theorem slotIff {disk : Disk} {path : String} {place : Place} :
    disk.slot? path = some place ↔
      ∃ parent name, disk.reach path = .ok (.entry parent name false) ∧
        parent ++ [name] = place := by
  unfold slot?
  constructor
  · intro found
    split at found
    · rename_i parent name located
      exact ⟨parent, name, located, Option.some.inj found⟩
    · contradiction
  · intro source
    obtain ⟨parent, name, located, rfl⟩ := source
    rw [located]

theorem slotStable {before after : Disk} (same : SameWays before after) (path : String) :
    after.slot? path = before.slot? path := by
  apply Option.ext
  intro place
  rw [slotIff, slotIff]
  constructor
  · intro source
    obtain ⟨parent, name, located, reached⟩ := source
    exact ⟨parent, name, routeStable same.symm located, reached⟩
  · intro source
    obtain ⟨parent, name, located, reached⟩ := source
    exact ⟨parent, name, routeStable same located, reached⟩

theorem lookIff {disk : Disk} {path : String} {node : Node} :
    disk.look? path = some node ↔
      (disk.reach path = .ok .directory ∧ node = .directory) ∨
        ∃ parent name slash, disk.reach path = .ok (.entry parent name slash) ∧
          disk.node? (parent ++ [name]) = some node ∧ (slash = false ∨ node = .directory) := by
  unfold look?
  constructor
  · intro found
    split at found
    · rename_i located
      exact .inl ⟨located, (Option.some.inj found).symm⟩
    · rename_i parent name slash located
      obtain ⟨here, shown⟩ := Option.filter_eq_some_iff.mp found
      exact .inr ⟨parent, name, slash, located, here, by simpa using shown⟩
    · contradiction
  · intro source
    rcases source with ⟨located, rfl⟩ | ⟨parent, name, slash, located, here, shown⟩
    · rw [located]
    · rw [located]
      exact Option.filter_eq_some_iff.mpr ⟨here, by simpa using shown⟩

theorem lookFile {disk : Disk} {path : String} {content : Bytes} :
    disk.look? path = some (.file content) ↔
      ∃ place, disk.slot? path = some place ∧ disk.node? place = some (.file content) := by
  rw [lookIff]
  constructor
  · intro source
    rcases source with ⟨_, other⟩ | ⟨parent, name, slash, located, here, plain | other⟩
    · nomatch other
    · subst plain
      exact ⟨parent ++ [name], slotIff.mpr ⟨parent, name, located, rfl⟩, here⟩
    · nomatch other
  · intro source
    obtain ⟨place, found, here⟩ := source
    obtain ⟨parent, name, located, rfl⟩ := slotIff.mp found
    exact .inr ⟨parent, name, false, located, here, .inl rfl⟩

theorem lookKept {before after : Disk} (same : SameWays before after) {path : String}
    (kept : ∀ place, before.slot? path = some place → after.node? place = before.node? place)
    {node : Node} (shown : before.look? path = some node) : after.look? path = some node := by
  rcases lookIff.mp shown with ⟨located, rfl⟩ | ⟨parent, name, slash, located, here, plain⟩
  · exact lookIff.mpr (.inl ⟨routeStable same located, rfl⟩)
  · refine lookIff.mpr (.inr ⟨parent, name, slash, routeStable same located, ?_, plain⟩)
    rcases plain with rfl | rfl
    · rw [kept _ (slotIff.mpr ⟨parent, name, located, rfl⟩), here]
    · exact (same.ways _ .directory rfl).mp here

theorem lookStable {before after : Disk} (same : SameWays before after) {path : String}
    (kept : ∀ place, before.slot? path = some place → after.node? place = before.node? place) :
    after.look? path = before.look? path := by
  apply Option.ext
  intro node
  constructor
  · apply lookKept same.symm
    intro place found
    rw [slotStable same] at found
    exact (kept place found).symm
  · exact lookKept same kept

theorem lookNothing {disk : Disk} {path : String} {place : Place}
    (found : disk.slot? path = some place) (gone : disk.node? place = none) :
    disk.look? path = none := by
  obtain ⟨parent, name, located, rfl⟩ := slotIff.mp found
  simp [look?, located, gone]

theorem readIff {disk : Disk} {path : String} {content : Bytes} :
    disk.read path = .ok content ↔ disk.look? path = some (.file content) := by
  rw [lookIff]
  unfold read
  constructor
  · intro taken
    obtain ⟨target, located, found⟩ := Result.bindOk.mp taken
    split at found
    · nomatch found
    rename_i parent name slash
    split at found
    · nomatch found
    · nomatch found
    · nomatch found
    rename_i here
    split at found
    · nomatch found
    rename_i plain
    cases found
    exact .inr ⟨parent, name, slash, located, here, .inl (Bool.eq_false_iff.mpr plain)⟩
  · intro source
    rcases source with ⟨_, other⟩ | ⟨parent, name, slash, located, here, plain | other⟩
    · nomatch other
    · subst plain
      simp [located, here, Except.bind]
    · nomatch other

theorem freeOf {disk : Disk} {place : Place} (noDirectory : disk.node? place ≠ some .directory)
    (noLink : ∀ text, disk.node? place ≠ some (.link text)) : disk.Free place := by
  intro node way
  cases node with
  | file content => nomatch way
  | directory => exact noDirectory
  | link text => exact noLink text

theorem creationPlace {disk : Disk} {path : String} {place : Place}
    (created : disk.creation path = .ok place) :
    disk.slot? path = some place ∧ disk.Free place := by
  obtain ⟨target, reached, found⟩ := Result.bindOk.mp created
  split at found
  · nomatch found
  rename_i parent name slash
  split at found
  · nomatch found
  rename_i plain
  split at found
  · nomatch found
  rename_i noDirectory
  cases found
  rw [Bool.eq_false_iff.mpr plain] at reached
  exact ⟨slotIff.mpr ⟨parent, name, reached, rfl⟩,
    freeOf noDirectory fun _ => reachNoLink reached⟩

section

variable {disk : Disk} {path : String} {place : Place} (unlinked : disk.Unlinked path)

include unlinked

theorem sourcePlace (origin : disk.source path = .ok place) : disk.slot? path = some place := by
  obtain ⟨target, located, found⟩ := Result.bindOk.mp origin
  split at found
  · nomatch found
  rename_i parent name slash
  split at found
  · nomatch found
  split at found
  · nomatch found
  rename_i plain
  cases found
  rw [Bool.eq_false_iff.mpr plain] at located
  exact slotIff.mpr ⟨parent, name, unlinked.reached.mpr located, rfl⟩

theorem destinationPlace (reached : disk.destination path = .ok place) :
    disk.slot? path = some place ∧ disk.Free place := by
  obtain ⟨target, located, found⟩ := Result.bindOk.mp reached
  split at found
  · nomatch found
  rename_i parent name slash
  split at found
  · nomatch found
  rename_i plain
  split at found
  · nomatch found
  rename_i noDirectory
  cases found
  rw [Bool.eq_false_iff.mpr plain] at located
  exact ⟨slotIff.mpr ⟨parent, name, unlinked.reached.mpr located, rfl⟩,
    freeOf noDirectory fun text => unlinked parent name false text located⟩

theorem removalIff : disk.removal? path = some place ↔
    disk.slot? path = some place ∧ ∃ content, disk.node? place = some (.file content) := by
  rw [slotIff]
  unfold removal?
  constructor
  · intro found
    split at found
    · rename_i parent name located
      split at found
      · nomatch found
      · nomatch found
      rename_i node noDirectory here
      cases found
      refine ⟨⟨parent, name, unlinked.reached.mpr located, rfl⟩, ?_⟩
      cases node with
      | file content => exact ⟨content, here⟩
      | directory => exact absurd rfl noDirectory
      | link text => exact absurd here (unlinked parent name false text located)
    · nomatch found
  · intro source
    obtain ⟨⟨parent, name, reached, rfl⟩, content, here⟩ := source
    rw [unlinked.reached.mp reached]
    simp only [here]

end

structure FileSource (path name : String) (leading chars : List Char) : Prop
    extends Path.Named path.toList leading chars where
  name : String.ofList chars = name
  names : Path.names path.toList = Path.names leading ++ [chars]

theorem fileSource {path name : String} (final : (steps path).getLast? = some name)
    (ends : IsName name) : ∃ leading chars, FileSource path name leading chars := by
  rw [steps, List.getLast?_map] at final
  obtain ⟨chars, last, rfl⟩ := Option.map_eq_some_iff.mp final
  cases split : Path.split? path.toList with
  | none =>
    rcases Path.lastOfNoFileName split last with rfl | rfl
    · exact absurd rfl ends.notSelf
    · exact absurd rfl ends.notParent
  | some parts =>
    obtain ⟨leading, name⟩ := parts
    have named := Path.splitSource split
    obtain ⟨count, steps⟩ := named.names
    rw [steps] at last
    cases count with
    | zero =>
      rw [List.replicate_zero, List.getLast?_concat] at last
      cases last
      exact ⟨leading, chars, named.toNamed, rfl, steps⟩
    | succ more =>
      rw [List.replicate_succ', ← List.cons_append, ← List.append_assoc,
        List.getLast?_concat] at last
      cases last
      exact absurd rfl ends.notSelf

theorem temporarySlot {disk : Disk} {target : String} {place : Place}
    (unlinked : disk.Unlinked target) (unlinkedToo : disk.Unlinked (temporary target))
    (found : disk.slot? target = some place) : disk.slot? (temporary target) ≠ some place := by
  intro again
  obtain ⟨parent, name, reached, rfl⟩ := slotIff.mp found
  obtain ⟨beside, lengthened, reachedToo, same⟩ := slotIff.mp again
  have entry := entrySource (unlinked.reached.mp reached)
  obtain ⟨leading, chars, source⟩ := fileSource entry.last entry.named
  have final := (entrySource (unlinkedToo.reached.mp reachedToo)).last
  have plain := Path.temporaryPlain source.plain
  rw [steps, temporary, String.toList_ofList, Path.temporaryOfSplit source.split,
    Path.namesLeading source.leads plain.noSlash plain.nonempty, List.getLast?_map,
    List.getLast?_concat, Option.map_some, Option.some.injEq] at final
  have last : lengthened = String.ofList chars :=
    (List.cons.inj (List.append_inj' same rfl).2).1.trans source.name.symm
  exact Path.temporaryNameOther chars (String.ofList_injective (final.trans last))

end RecordQuery.Disk
