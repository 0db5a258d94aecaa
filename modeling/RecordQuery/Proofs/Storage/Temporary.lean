import RecordQuery.Proofs.Storage.Replacement

/-! The temporary path of a target. It leads to a file beside the target whose name is the target's
with an ending more, so that no target is its own temporary path, and two targets share theirs only
if they share the name and what stands before it. A path without a file name is its own temporary
path, and nothing can be created there. -/
namespace RecordQuery

namespace Path

variable {path leading name front other : List Char}

theorem Named.one (named : Named path leading name) (again : Named path front other) :
    front = leading ∧ other = name := by
  have same := again.split.symm.trans named.split
  simpa using same

theorem Named.temporary (named : Named path leading name) :
    temporary path = leading ++ temporaryName name :=
  temporaryOfSplit named.split

theorem Named.lengthened (named : Named path leading name) :
    Named (Path.temporary path) leading (temporaryName name) :=
  ⟨named.leads, temporaryPlain named.plain, [], .nil, by simp [named.temporary]⟩

theorem Named.temporaryOther (named : Named path leading name) : Path.temporary path ≠ path := by
  intro same
  have lengthened := named.lengthened
  rw [same] at lengthened
  exact temporaryNameOther name (named.one lengthened).2

theorem Named.temporaryOne (named : Named path leading name) {second : List Char}
    (again : Named second front other) (same : Path.temporary second = Path.temporary path) :
    front = leading ∧ other = name := by
  have shared := named.lengthened.one (same ▸ again.lengthened)
  exact ⟨shared.1, List.append_cancel_right shared.2⟩

theorem Named.temporaryNames (named : Named path leading name) :
    names (Path.temporary path) = names leading ++ [temporaryName name] := by
  have plain := temporaryPlain named.plain
  rw [named.temporary, namesLeading named.leads plain.noSlash plain.nonempty]

theorem Named.temporaryAbsolute (named : Named path leading name) :
    isAbsolute (Path.temporary path) = isAbsolute path := by
  obtain ⟨c, others, same⟩ := List.exists_cons_of_ne_nil named.plain.nonempty
  obtain ⟨trailing, _, whole⟩ := named.text
  rw [named.temporary, whole, same]
  cases leading <;> simp [isAbsolute, temporaryName]

theorem Named.temporaryEnd (named : Named path leading name) :
    endsInSlash (Path.temporary path) = false := by
  simp [named.temporary, temporaryName, endsInSlash]

theorem Named.temporaryChars (named : Named path leading name) {c : Char} (apart : c ∉ path)
    (other : c ∉ ".tmp".toList) : c ∉ Path.temporary path := by
  obtain ⟨trailing, _, whole⟩ := named.text
  rw [whole] at apart
  rw [named.temporary, temporaryName]
  simp only [List.mem_append, not_or] at apart ⊢
  exact ⟨apart.1.1, apart.1.2, other⟩

end Path

namespace Disk

variable {disk : Disk} {target name : String} {parent : Place} {slash : Bool}
  {leading chars : List Char}

theorem temporaryText (target : String) :
    (temporary target).toList = Path.temporary target.toList :=
  String.toList_ofList

theorem temporaryWord (file : FileSource target name leading chars) :
    String.ofList (Path.temporaryName chars) = name ++ ".tmp" := by
  rw [Path.temporaryName, String.ofList_append, file.name, String.ofList_toList]

theorem fileSteps (file : FileSource target name leading chars) :
    steps target = (Path.names leading).map String.ofList ++ [name] := by
  rw [steps, file.names, List.map_append, List.map_singleton, file.name]

theorem temporarySteps (file : FileSource target name leading chars) :
    steps (temporary target) = (Path.names leading).map String.ofList ++ [name ++ ".tmp"] := by
  rw [steps, temporaryText, file.toNamed.temporaryNames, List.map_append, List.map_singleton,
    temporaryWord file]

theorem temporaryWordPlain (file : FileSource target name leading chars) :
    ¬ (name ++ ".tmp" = "." ∨ name ++ ".tmp" = "..") := by
  have lengthy := Path.temporaryPlain file.toNamed.plain
  rw [← temporaryWord file]
  rintro (self | parent)
  · exact lengthy.notSelf (String.ofList_injective self)
  · exact lengthy.notParent (String.ofList_injective parent)

theorem temporaryLocated (located : disk.locate target = .ok (.entry parent name slash)) :
    disk.locate (temporary target) = .ok (.entry parent (name ++ ".tmp") false) ∨
      disk.locate (temporary target) = .error .nameTooLong := by
  have routes := routesIff.mp located
  have source := entrySource located
  obtain ⟨leading, chars, file⟩ := fileSource source.last source.named
  have named := file.toNamed
  have noNul := named.temporaryChars routes.noNul (by decide)
  have nonempty : Path.temporary target.toList ≠ [] := by
    simp [named.temporary, Path.temporaryName]
  have resolved := resolveOther source.named.plain (temporaryWordPlain file)
    (fileSteps file ▸ routes.resolves) rfl false
  rw [locate, route, temporaryText, if_neg noNul, if_neg nonempty, start, temporaryText,
    named.temporaryAbsolute, named.temporaryEnd, temporarySteps file, ← start, resolved]
  split
  · exact .inr rfl
  · split
    · exact .inr rfl
    · exact .inl rfl

theorem unnamedRoute (unnamed : ∀ leading name, ¬ Path.Named target.toList leading name)
    (disk : Disk) (follows : Bool) :
    disk.route follows target ≠ .ok (.entry parent name slash) := by
  intro routed
  obtain ⟨last, final, named, _⟩ := (routesIff.mp routed).resolves.ofEntry.last
  obtain ⟨leading, chars, file⟩ := fileSource final named
  exact unnamed leading chars file.toNamed

theorem temporaryUnnamed (unnamed : ∀ leading name, ¬ Path.Named target.toList leading name) :
    temporary target = target := by
  have split : Path.split? target.toList = none :=
    Option.eq_none_iff_forall_ne_some.mpr fun parts found =>
      unnamed parts.1 parts.2 (Path.splitIff.mp found)
  simp [temporary, Path.temporary, split]

theorem replaceUnnamed (unnamed : ∀ leading name, ¬ Path.Named target.toList leading name)
    (disk : Disk) (hazards : Hazards) (items : List Item) :
    ∃ cause, disk.replace hazards target items = (.error (.io cause), []) := by
  have clean : disk.cleanUp hazards target = [] := by
    unfold cleanUp removal?
    split
    · rename_i found
      split at found
      · rename_i located
        exact absurd located (unnamedRoute unnamed disk false)
      · nomatch found
    · rfl
  unfold replace attemptReplace
  rw [temporaryUnnamed unnamed]
  cases created : Hazards.before hazards.creating (disk.creation target) with
  | error cause => exact ⟨cause, by simp [applyAll, clean]⟩
  | ok place =>
    obtain ⟨parent, name, reached, _⟩ := slotIff.mp (creationPlace (hazardBefore created)).1
    exact absurd reached (unnamedRoute unnamed disk true)

structure Sibling (target : String) (leading name : List Char) : Prop where
  text : (temporary target).toList = leading ++ (name ++ ".tmp".toList)
  named : Path.Named (temporary target).toList leading (name ++ ".tmp".toList)
  other : temporary target ≠ target
  beside : ∀ (disk : Disk) parent entry slash,
    disk.locate target = .ok (.entry parent entry slash) → entry = String.ofList name ∧
      (disk.locate (temporary target) = .ok (.entry parent (entry ++ ".tmp") false) ∨
        disk.locate (temporary target) = .error .nameTooLong)
  one : ∀ (second : String) front last, Path.Named second.toList front last →
    temporary second = temporary target → front = leading ∧ last = name

theorem sibling {leading name : List Char} (named : Path.Named target.toList leading name) :
    Sibling target leading name := by
  constructor
  case text => rw [temporaryText, named.temporary, Path.temporaryName]
  case named =>
    rw [temporaryText]
    exact named.lengthened
  case other =>
    intro same
    exact named.temporaryOther ((temporaryText target).symm.trans (congrArg String.toList same))
  case beside =>
    intro disk parent entry slash located
    have source := entrySource located
    obtain ⟨_, _, file⟩ := fileSource source.last source.named
    exact ⟨(named.one file.toNamed).2 ▸ file.name.symm, temporaryLocated located⟩
  case one =>
    intro second front last again same
    refine named.temporaryOne again ?_
    rw [← temporaryText, ← temporaryText, same]

theorem temporaryBeside (target : String) :
    (∀ leading name, Path.Named target.toList leading name → Sibling target leading name) ∧
      ((∀ leading name, ¬ Path.Named target.toList leading name) →
        temporary target = target ∧ ∀ (disk : Disk) (hazards : Hazards) (items : List Item),
          ∃ cause, disk.replace hazards target items = (.error (.io cause), [])) :=
  ⟨fun _ _ named => sibling named,
    fun unnamed => ⟨temporaryUnnamed unnamed, replaceUnnamed unnamed⟩⟩

theorem temporaryBesideDots :
    Path.Named "d/.a../.".toList "d/".toList ".a..".toList ∧
      Sibling "d/.a../." "d/".toList ".a..".toList ∧
      (∀ leading name, ¬ Path.Named "d/..".toList leading name) ∧
      ∀ (disk : Disk) (hazards : Hazards) (items : List Item),
        ∃ cause, disk.replace hazards "d/.." items = (.error (.io cause), []) := by
  have named : Path.Named "d/.a../.".toList "d/".toList ".a..".toList :=
    Path.splitIff.mp (by decide +kernel)
  have unnamed : ∀ leading name, ¬ Path.Named "d/..".toList leading name := by
    intro leading name named
    have none : Path.split? "d/..".toList = none := by decide +kernel
    cases none.symm.trans named.split
  exact ⟨named, (temporaryBeside "d/.a../.").1 _ _ named, unnamed,
    ((temporaryBeside "d/..").2 unnamed).2⟩

end Disk
end RecordQuery
