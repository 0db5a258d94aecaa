import RecordQuery.Proofs.Storage.Slot

/-! What changes leave alone, and where a run of changes may stop. A change is confined to its own
places; one that only concerns files leaves every directory and every link, so that all paths lead
where they led. -/
namespace RecordQuery

def Change.places : Change → List Place
  | .created place => [place]
  | .appended place _ => [place]
  | .moved source destination => [source, destination]
  | .removed place => [place]

namespace Disk

theorem nodePut (disk : Disk) {place : Place} (below : place ≠ []) (node : Node) (other : Place) :
    (disk.put place node).node? other = if other = place then some node else disk.node? other := by
  split
  · rename_i same
    rw [same, nodePutSame disk below node]
  · rename_i different
    exact nodePutOther disk different node

theorem findFilterSame (nodes : List (Place × Node)) (place : Place) :
    find? place (nodes.filter fun entry => entry.1 ≠ place) = none := by
  induction nodes with
  | nil => rfl
  | cons entry rest ih =>
    by_cases same : entry.1 = place
    · rw [List.filter_cons_of_neg (by simp [same]), ih]
    · rw [List.filter_cons_of_pos (by simp [same])]
      simp only [find?, if_neg same, ih]

theorem nodeRemove (disk : Disk) {place : Place} (below : place ≠ []) (other : Place) :
    (disk.remove place).node? other = if other = place then none else disk.node? other := by
  split
  · rename_i same
    rw [same, node?, if_neg below]
    exact findFilterSame disk.nodes place
  · rename_i different
    exact nodeRemoveOther disk different

theorem applyOthers (disk : Disk) (change : Change) {place : Place}
    (apart : place ∉ change.places) : (disk.apply change).node? place = disk.node? place := by
  cases change with
  | created own => exact nodePutOther disk (List.ne_of_not_mem_cons apart) _
  | appended own bytes =>
    simp only [apply]
    split
    · exact nodePutOther disk (List.ne_of_not_mem_cons apart) _
    · rfl
  | moved source destination =>
    simp only [Change.places, List.mem_cons, List.not_mem_nil, or_false, not_or] at apart
    simp only [apply]
    split
    · rw [nodePutOther _ apart.2, nodeRemoveOther _ apart.1]
    · rfl
  | removed own => exact nodeRemoveOther disk (List.ne_of_not_mem_cons apart)

theorem applyAllOthers (disk : Disk) (changes : List Change) {place : Place}
    (apart : ∀ change ∈ changes, place ∉ change.places) :
    (disk.applyAll changes).node? place = disk.node? place := by
  induction changes generalizing disk with
  | nil => rfl
  | cons change rest ih =>
    have later : ∀ next ∈ rest, place ∉ next.places :=
      fun next member => apart next (List.mem_cons_of_mem change member)
    have first := applyOthers disk change (apart change List.mem_cons_self)
    exact (ih (disk.apply change) later).trans first

theorem freeNode {disk : Disk} {place : Place} (free : disk.Free place) {node : Node}
    (here : disk.node? place = some node) : node.onWay = false :=
  Bool.eq_false_iff.mpr fun way => free node way here

theorem putWays {disk : Disk} {place : Place} (free : disk.Free place) {node : Node}
    (file : node.onWay = false) : SameWays disk (disk.put place node) := by
  refine ⟨rfl, fun other way leads => ?_⟩
  rw [nodePut disk (freeBelow free)]
  split
  · rename_i same
    subst same
    refine ⟨fun here => absurd here (free way leads), fun here => ?_⟩
    cases Option.some.inj here
    exact nomatch file.symm.trans leads
  · rfl

theorem removeWays {disk : Disk} {place : Place} (free : disk.Free place) :
    SameWays disk (disk.remove place) := by
  refine ⟨rfl, fun other way leads => ?_⟩
  rw [nodeRemove disk (freeBelow free)]
  split
  · rename_i same
    subst same
    exact ⟨fun here => absurd here (free way leads), nofun⟩
  · rfl

theorem applyWays {disk : Disk} {change : Change}
    (free : ∀ place ∈ change.places, disk.Free place) : SameWays disk (disk.apply change) := by
  cases change with
  | created place => exact putWays (free place List.mem_cons_self) rfl
  | appended place bytes =>
    simp only [apply]
    split
    · exact putWays (free place List.mem_cons_self) rfl
    · exact SameWays.refl disk
  | moved source destination =>
    have freeSource : disk.Free source := free source List.mem_cons_self
    have freeDestination : disk.Free destination :=
      free destination (List.mem_cons_of_mem _ List.mem_cons_self)
    simp only [apply]
    split
    · rename_i node here
      have removed := removeWays freeSource
      exact removed.trans (putWays (removed.free.mp freeDestination) (freeNode freeSource here))
    · exact SameWays.refl disk
  | removed place => exact removeWays (free place List.mem_cons_self)

theorem applyAllWays {disk : Disk} {changes : List Change}
    (free : ∀ change ∈ changes, ∀ place ∈ change.places, disk.Free place) :
    SameWays disk (disk.applyAll changes) := by
  induction changes generalizing disk with
  | nil => exact SameWays.refl disk
  | cons change rest ih =>
    have first := applyWays (free change List.mem_cons_self)
    have later : ∀ next ∈ rest, ∀ place ∈ next.places, (disk.apply change).Free place :=
      fun next member place own =>
        first.free.mp (free next (List.mem_cons_of_mem change member) place own)
    exact first.trans (ih later)

theorem applyMoved {disk : Disk} {source destination : Place} {node : Node}
    (here : disk.node? source = some node) (below : source ≠ []) (free : destination ≠ [])
    (apart : destination ≠ source) :
    (disk.apply (.moved source destination)).node? destination = some node ∧
      (disk.apply (.moved source destination)).node? source = none := by
  simp only [apply, here]
  constructor
  · exact nodePutSame _ free node
  · rw [nodePutOther _ apart.symm, nodeRemove disk below, if_pos rfl]

end Disk

/-- What has been made of some changes when the run of them stops: the first of them, and of an
addition of bytes perhaps only a part. -/
inductive Interrupted : List Change → List Change → Prop where
  | stop {changes} : Interrupted changes []
  | part {place bytes rest} (count : Nat) :
      Interrupted (.appended place bytes :: rest) [.appended place (bytes.take count)]
  | next {change rest made} (later : Interrupted rest made) :
      Interrupted (change :: rest) (change :: made)

theorem Interrupted.all (changes : List Change) : Interrupted changes changes := by
  induction changes with
  | nil => exact .stop
  | cons change rest ih => exact .next ih

theorem Interrupted.places {changes made : List Change} (interrupted : Interrupted changes made)
    {change : Change} (member : change ∈ made) :
    ∃ original ∈ changes, change.places = original.places := by
  induction interrupted with
  | stop => nomatch member
  | part count =>
    cases List.mem_singleton.mp member
    exact ⟨_, List.mem_cons_self, rfl⟩
  | next later ih =>
    rcases List.mem_cons.mp member with rfl | inside
    · exact ⟨_, List.mem_cons_self, rfl⟩
    · obtain ⟨original, found, same⟩ := ih inside
      exact ⟨original, List.mem_cons_of_mem _ found, same⟩

theorem Interrupted.beforeMove {front made : List Change} {source destination : Place}
    (interrupted : Interrupted (front ++ [.moved source destination]) made) :
    made = front ++ [.moved source destination] ∨ Interrupted front made := by
  induction front generalizing made with
  | nil =>
    cases interrupted with
    | stop => exact .inr .stop
    | next later =>
      cases later
      exact .inl rfl
  | cons change rest ih =>
    cases interrupted with
    | stop => exact .inr .stop
    | part count => exact .inr (.part count)
    | next later =>
      rcases ih later with rfl | sooner
      · exact .inl rfl
      · exact .inr (.next sooner)

end RecordQuery
