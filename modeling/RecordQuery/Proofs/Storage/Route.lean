import RecordQuery.Proofs.Result
import RecordQuery.Storage.Disk

/-! Where paths lead. `Leads` is what the steps up to the next link come to and `Resolves` what a
whole path comes to. Only directories and links decide it: two disks with the same ones agree on
every path, whatever files they hold. -/
namespace RecordQuery

def Node.onWay : Node → Bool
  | .file _ => false
  | _ => true

def Node.isLink : Node → Bool
  | .link _ => true
  | _ => false

namespace Disk

structure SameWays (before after : Disk) : Prop where
  current : before.current = after.current
  ways : ∀ place node, node.onWay →
    (before.node? place = some node ↔ after.node? place = some node)

theorem SameWays.refl (disk : Disk) : SameWays disk disk := ⟨rfl, fun _ _ _ => Iff.rfl⟩

theorem SameWays.symm {before after : Disk} (same : SameWays before after) :
    SameWays after before :=
  ⟨same.current.symm, fun place node way => (same.ways place node way).symm⟩

theorem SameWays.trans {first second third : Disk} (left : SameWays first second)
    (right : SameWays second third) : SameWays first third :=
  ⟨left.current.trans right.current,
    fun place node way => (left.ways place node way).trans (right.ways place node way)⟩

def Free (disk : Disk) (place : Place) : Prop :=
  ∀ node, node.onWay → disk.node? place ≠ some node

theorem freeBelow {disk : Disk} {place : Place} (free : disk.Free place) : place ≠ [] := by
  intro same
  subst same
  exact free .directory rfl (if_pos rfl)

theorem SameWays.free {before after : Disk} (same : SameWays before after) {place : Place} :
    before.Free place ↔ after.Free place :=
  forall_congr' fun node => forall_congr' fun way => not_congr (same.ways place node way)

structure IsName (name : String) : Prop where
  notSelf : name ≠ "."
  notParent : name ≠ ".."
  short : ¬ maxName < name.utf8ByteSize

theorem IsName.plain {name : String} (named : IsName name) : ¬ (name = "." ∨ name = "..") :=
  fun dots => dots.elim named.notSelf named.notParent

inductive Leads (disk : Disk) (follows : Bool) : Place → List String → Course → Prop where
  | directory {place} : Leads disk follows place [] .directory
  | dots {place name rest course} (here : disk.node? place = some .directory)
      (dots : name = "." ∨ name = "..")
      (later : Leads disk follows (place.follow name) rest course) :
      Leads disk follows place (name :: rest) course
  | last {place name} (here : disk.node? place = some .directory) (named : IsName name)
      (ends : disk.followed? follows (place ++ [name]) [] = none) :
      Leads disk follows place [name] (.last place name)
  | link {place name rest text} (here : disk.node? place = some .directory) (named : IsName name)
      (found : disk.followed? follows (place ++ [name]) rest = some text) :
      Leads disk follows place (name :: rest) (.link place text rest)
  | down {place name rest course} (here : disk.node? place = some .directory)
      (named : IsName name) (more : rest ≠ [])
      (none : disk.followed? follows (place ++ [name]) rest = none)
      (later : Leads disk follows (place ++ [name]) rest course) :
      Leads disk follows place (name :: rest) course

inductive Resolves (disk : Disk) (follows : Bool) :
    Nat → Place → List String → Bool → Target → Prop where
  | directory {links place names slash} (leads : Leads disk follows place names .directory) :
      Resolves disk follows (links + 1) place names slash .directory
  | entry {links place names slash parent name}
      (leads : Leads disk follows place names (.last parent name)) :
      Resolves disk follows (links + 1) place names slash (.entry parent name slash)
  | link {links place names slash parent text rest target}
      (leads : Leads disk follows place names (.link parent text rest)) (something : text ≠ "")
      (later : Resolves disk follows links (start parent text) (steps text ++ rest)
        (slash || (rest.isEmpty && Path.endsInSlash text.toList)) target) :
      Resolves disk follows (links + 1) place names slash target

variable {disk : Disk} {follows : Bool} {place parent : Place} {name text last : String}
  {names rest front : List String} {course : Course} {target : Target} {links : Nat} {slash : Bool}

theorem advanceDots (here : disk.node? place = some .directory) (dots : name = "." ∨ name = "..") :
    disk.advance follows place (name :: rest) = disk.advance follows (place.follow name) rest := by
  simp only [advance, here, if_pos dots]

theorem advanceNamed (here : disk.node? place = some .directory) (named : IsName name) :
    disk.advance follows place (name :: rest) =
      match disk.followed? follows (place ++ [name]) rest with
      | some text => .ok (.link place text rest)
      | none =>
        if rest = [] then .ok (.last place name)
        else disk.advance follows (place ++ [name]) rest := by
  cases found : disk.followed? follows (place ++ [name]) rest with
  | some text => simp only [advance, here, if_neg named.plain, if_neg named.short, found]
  | none => simp only [advance, here, if_neg named.plain, if_neg named.short, found]

theorem advanceDown (here : disk.node? place = some .directory) (named : IsName name)
    (more : rest ≠ []) (none : disk.followed? follows (place ++ [name]) rest = none) :
    disk.advance follows place (name :: rest) = disk.advance follows (place ++ [name]) rest := by
  simp only [advanceNamed here named, none, if_neg more]

theorem leadsOfAdvance (advanced : disk.advance follows place names = .ok course) :
    Leads disk follows place names course := by
  induction names generalizing place with
  | nil =>
    cases advanced
    exact .directory
  | cons name rest ih =>
    unfold advance at advanced
    split at advanced
    · nomatch advanced
    · nomatch advanced
    · nomatch advanced
    rename_i here
    split at advanced
    · rename_i dots
      exact .dots here dots (ih advanced)
    rename_i plain
    split at advanced
    · nomatch advanced
    rename_i short
    have named : IsName name :=
      ⟨fun self => plain (.inl self), fun parent => plain (.inr parent), short⟩
    split at advanced
    · rename_i found
      cases advanced
      exact .link here named found
    rename_i none
    split at advanced
    · rename_i ended
      subst ended
      cases advanced
      exact .last here named none
    · rename_i more
      exact .down here named more none (ih advanced)

theorem Leads.advanced (leads : Leads disk follows place names course) :
    disk.advance follows place names = .ok course := by
  induction leads with
  | directory => rfl
  | dots here dots later ih => rw [advanceDots here dots, ih]
  | last here named ends => simp only [advanceNamed here named, ends, if_true]
  | link here named found => simp only [advanceNamed here named, found]
  | down here named more none later ih => rw [advanceDown here named more none, ih]

theorem followedIff : disk.followed? follows place rest = some text ↔
    disk.node? place = some (.link text) ∧ (follows = true ∨ rest ≠ []) := by
  unfold followed?
  split
  · rename_i other here
    rw [here]
    cases follows <;> cases rest <;> simp
  · rename_i other
    exact ⟨nofun, fun source => absurd source.1 (other text)⟩

theorem passedIff : disk.followed? follows place rest = none ↔
    ∀ text, disk.node? place = some (.link text) → ¬ (follows = true ∨ rest ≠ []) := by
  rw [Option.eq_none_iff_forall_ne_some]
  exact forall_congr' fun text => by rw [ne_eq, followedIff, not_and]

theorem followedStable {before after : Disk} (same : SameWays before after) (follows : Bool)
    (place : Place) (rest : List String) :
    after.followed? follows place rest = before.followed? follows place rest := by
  apply Option.ext
  intro text
  rw [followedIff, followedIff, same.ways place (.link text) rfl]

theorem Leads.stable {before after : Disk} (same : SameWays before after)
    (leads : Leads before follows place names course) : Leads after follows place names course := by
  have directory {place} : before.node? place = some .directory →
      after.node? place = some .directory := (same.ways place .directory rfl).mp
  have followed := followedStable same follows
  induction leads with
  | directory => exact .directory
  | dots here dots later ih => exact .dots (directory here) dots ih
  | last here named ends => exact .last (directory here) named ((followed _ _).trans ends)
  | link here named found => exact .link (directory here) named ((followed _ _).trans found)
  | down here named more none later ih =>
    exact .down (directory here) named more ((followed _ _).trans none) ih

theorem passedLast : disk.followed? false place [] = none :=
  passedIff.mpr fun _ _ either => by simp at either

structure LastSource (disk : Disk) (follows : Bool) (names : List String) (parent : Place)
    (name : String) : Prop where
  last : names.getLast? = some name
  named : IsName name
  ends : disk.followed? follows (parent ++ [name]) [] = none

theorem Leads.lastSource (leads : Leads disk follows place names (.last parent name)) :
    LastSource disk follows names parent name := by
  generalize same : Course.last parent name = course at leads
  induction leads with
  | directory => nomatch same
  | dots here dots later ih =>
    have source := ih same
    refine ⟨?_, source.named, source.ends⟩
    rw [List.getLast?_cons, source.last, Option.getD_some]
  | last here named ends =>
    cases same
    exact ⟨rfl, named, ends⟩
  | link here named found => nomatch same
  | down here named more none later ih =>
    have source := ih same
    refine ⟨?_, source.named, source.ends⟩
    rw [List.getLast?_cons, source.last, Option.getD_some]

theorem Leads.linkSource (leads : Leads disk follows place names (.link parent text rest)) :
    (follows = true ∨ rest ≠ []) ∧ ∃ front name, names = front ++ name :: rest ∧ IsName name := by
  generalize same : Course.link parent text rest = course at leads
  induction leads with
  | directory => nomatch same
  | @dots place first others course here dots later ih =>
    obtain ⟨followed, front, name, rfl, named⟩ := ih same
    exact ⟨followed, first :: front, name, rfl, named⟩
  | last here named ends => nomatch same
  | @link place name others text here named found =>
    cases same
    exact ⟨(followedIff.mp found).2, [], name, rfl, named⟩
  | @down place first others course here named more none later ih =>
    obtain ⟨followed, front, name, rfl, named⟩ := ih same
    exact ⟨followed, first :: front, name, rfl, named⟩

theorem resolvesIff : disk.resolve follows links place names slash = .ok target ↔
    Resolves disk follows links place names slash target := by
  constructor
  · intro resolved
    induction links generalizing place names slash with
    | zero => nomatch resolved
    | succ links ih =>
      obtain ⟨course, advanced, found⟩ := Result.bindOk.mp resolved
      have leads := leadsOfAdvance advanced
      split at found
      · cases found
        exact .directory leads
      · cases found
        exact .entry leads
      · split at found
        · nomatch found
        · rename_i something
          exact .link leads something (ih found)
  · intro resolves
    induction resolves with
    | directory leads => exact Result.bindOk.mpr ⟨_, leads.advanced, rfl⟩
    | entry leads => exact Result.bindOk.mpr ⟨_, leads.advanced, rfl⟩
    | link leads something later ih =>
      refine Result.bindOk.mpr ⟨_, leads.advanced, ?_⟩
      dsimp only
      rw [if_neg something, ih]

theorem Resolves.stable {before after : Disk} (same : SameWays before after)
    (resolves : Resolves before follows links place names slash target) :
    Resolves after follows links place names slash target := by
  induction resolves with
  | directory leads => exact .directory (leads.stable same)
  | entry leads => exact .entry (leads.stable same)
  | link leads something later ih => exact .link (leads.stable same) something ih

structure ResolvedEntry (disk : Disk) (follows : Bool) (names : List String) (parent : Place)
    (name : String) : Prop where
  last : ∃ last, names.getLast? = some last ∧ IsName last ∧ (follows = false → last = name)
  ends : disk.followed? follows (parent ++ [name]) [] = none

theorem lastAfter (front : List String) {back : List String} (more : back ≠ []) :
    (front ++ back).getLast? = back.getLast? := by
  rw [List.getLast?_append, List.getLast?_eq_some_getLast more, Option.some_or]

theorem Resolves.ofEntry {written : Bool}
    (resolves : Resolves disk follows links place names slash (.entry parent name written)) :
    ResolvedEntry disk follows names parent name := by
  generalize same : Target.entry parent name written = target at resolves
  induction resolves with
  | directory leads => nomatch same
  | entry leads =>
    cases same
    have source := leads.lastSource
    exact ⟨⟨_, source.last, source.named, fun _ => rfl⟩, source.ends⟩
  | @link links place names slash origin text rest target leads something later ih =>
    obtain ⟨last, ends⟩ := ih same
    refine ⟨?_, ends⟩
    obtain ⟨followed, front, first, rfl, named⟩ := leads.linkSource
    rw [lastAfter _ (List.cons_ne_nil _ _)]
    rcases List.eq_nil_or_concat rest with rfl | ⟨others, final, rfl⟩
    · exact ⟨first, rfl, named, fun none => absurd none (by simpa using followed)⟩
    · have more : others.concat final ≠ [] := by simp
      rw [lastAfter _ more] at last
      rwa [← List.singleton_append, lastAfter _ more]

structure Routes (disk : Disk) (follows : Bool) (path : String) (target : Target) : Prop where
  noNul : '\x00' ∉ path.toList
  nonempty : path.toList ≠ []
  short : ¬ pathLimit ≤ path.utf8ByteSize
  resolves : Resolves disk follows (maxLinks + 1) (start disk.current path) (steps path)
    (Path.endsInSlash path.toList) target

theorem routesIff {path : String} :
    disk.route follows path = .ok target ↔ Routes disk follows path target := by
  unfold route
  constructor
  · intro routed
    split at routed
    · nomatch routed
    rename_i noNul
    split at routed
    · nomatch routed
    rename_i nonempty
    split at routed
    · nomatch routed
    rename_i short
    exact ⟨noNul, nonempty, short, resolvesIff.mp routed⟩
  · intro routes
    rw [if_neg routes.noNul, if_neg routes.nonempty, if_neg routes.short]
    exact resolvesIff.mpr routes.resolves

theorem routeStable {before after : Disk} (same : SameWays before after) {path : String}
    (routed : before.route follows path = .ok target) : after.route follows path = .ok target := by
  have routes := routesIff.mp routed
  refine routesIff.mpr ⟨routes.noNul, routes.nonempty, routes.short, ?_⟩
  rw [← same.current]
  exact routes.resolves.stable same

def LeadsToLink (disk : Disk) (place : Place) (names : List String) : Prop :=
  ∃ parent name text, Leads disk false place names (.last parent name) ∧
    disk.node? (parent ++ [name]) = some (.link text)

def ResolvesToLink (disk : Disk) (links : Nat) (place : Place) (names : List String)
    (slash : Bool) : Prop :=
  ∃ parent name written text, Resolves disk false links place names slash
      (.entry parent name written) ∧ disk.node? (parent ++ [name]) = some (.link text)

/-- The steps stop at a link which ends them, or do not depend on whether such a link is
followed. -/
theorem Leads.unfollowed (leads : Leads disk true place names course) :
    Leads disk false place names course ∨ LeadsToLink disk place names := by
  have unseen {place rest} (apart : disk.followed? true place rest = none) :
      disk.followed? false place rest = none :=
    passedIff.mpr fun text link _ => passedIff.mp apart text link (.inl rfl)
  induction leads with
  | directory => exact .inl .directory
  | dots here dots later ih =>
    rcases ih with same | ⟨parent, name, text, same, link⟩
    · exact .inl (.dots here dots same)
    · exact .inr ⟨parent, name, text, .dots here dots same, link⟩
  | last here named ends => exact .inl (.last here named (unseen ends))
  | @link place name rest text here named found =>
    have link := (followedIff.mp found).1
    cases rest with
    | nil =>
      exact .inr ⟨place, name, text, .last here named passedLast, link⟩
    | cons next others =>
      exact .inl (.link here named (followedIff.mpr ⟨link, .inr (List.cons_ne_nil _ _)⟩))
  | down here named more none later ih =>
    rcases ih with same | ⟨parent, name, text, same, link⟩
    · exact .inl (.down here named more (unseen none) same)
    · exact .inr ⟨parent, name, text, .down here named more (unseen none) same, link⟩

theorem LeadsToLink.resolves (stops : LeadsToLink disk place names) :
    ResolvesToLink disk (links + 1) place names slash := by
  obtain ⟨parent, name, text, leads, link⟩ := stops
  exact ⟨parent, name, slash, text, .entry leads, link⟩

theorem Resolves.unfollowed (resolves : Resolves disk true links place names slash target) :
    Resolves disk false links place names slash target ∨
      ResolvesToLink disk links place names slash := by
  induction resolves with
  | directory leads => exact leads.unfollowed.imp .directory LeadsToLink.resolves
  | entry leads => exact leads.unfollowed.imp .entry LeadsToLink.resolves
  | link leads something later ih =>
    rcases leads.unfollowed with same | stops
    · rcases ih with further | ⟨parent, name, written, text, further, link⟩
      · exact .inl (.link same something further)
      · exact .inr ⟨parent, name, written, text, .link same something further, link⟩
    · exact .inr stops.resolves

theorem Leads.followed (leads : Leads disk false place names course)
    (unlinked : ∀ parent name text, course = .last parent name →
      disk.node? (parent ++ [name]) ≠ some (.link text)) :
    Leads disk true place names course := by
  induction leads with
  | directory => exact .directory
  | dots here dots later ih => exact .dots here dots (ih unlinked)
  | last here named ends =>
    exact .last here named (passedIff.mpr fun text link => absurd link (unlinked _ _ text rfl))
  | link here named found =>
    exact .link here named (followedIff.mpr ⟨(followedIff.mp found).1, .inl rfl⟩)
  | down here named more none later ih =>
    refine .down here named more (passedIff.mpr fun text link _ => ?_) (ih unlinked)
    exact passedIff.mp none text link (.inr more)

theorem Resolves.followed (resolves : Resolves disk false links place names slash target)
    (unlinked : ∀ parent name written text, target = .entry parent name written →
      disk.node? (parent ++ [name]) ≠ some (.link text)) :
    Resolves disk true links place names slash target := by
  induction resolves with
  | directory leads => exact .directory (leads.followed nofun)
  | entry leads =>
    refine .entry (leads.followed fun _ _ text same => ?_)
    cases same
    exact unlinked _ _ _ text rfl
  | link leads something later ih => exact .link (leads.followed nofun) something (ih unlinked)

/-- A path that does not end in a link, though there may be links on its way. -/
def Unlinked (disk : Disk) (path : String) : Prop :=
  ∀ parent name slash text, disk.locate path = .ok (.entry parent name slash) →
    disk.node? (parent ++ [name]) ≠ some (.link text)

def endsInLink (disk : Disk) (path : String) : Bool :=
  match disk.locate path with
  | .ok (.entry parent name _) => (disk.node? (parent ++ [name])).any Node.isLink
  | _ => false

theorem unlinkedIff {path : String} : disk.Unlinked path ↔ disk.endsInLink path = false := by
  unfold Unlinked endsInLink
  split
  · rename_i parent name slash located
    constructor
    · intro unlinked
      cases here : disk.node? (parent ++ [name]) with
      | none => rfl
      | some node =>
        cases node with
        | link text => exact absurd here (unlinked parent name slash text located)
        | _ => rfl
    · rintro none _ _ _ text again link
      cases located.symm.trans again
      rw [link] at none
      nomatch none
  · rename_i other
    exact ⟨fun _ => rfl, fun _ parent name slash _ located => absurd located (other parent name slash)⟩

instance (disk : Disk) (path : String) : Decidable (disk.Unlinked path) :=
  decidable_of_iff _ unlinkedIff.symm

def LinkFree (disk : Disk) : Prop := ∀ entry ∈ disk.nodes, entry.2.isLink = false

instance (disk : Disk) : Decidable disk.LinkFree :=
  inferInstanceAs (Decidable (∀ entry ∈ disk.nodes, entry.2.isLink = false))

theorem findNoLink {nodes : List (Place × Node)}
    (each : ∀ entry ∈ nodes, entry.2.isLink = false) (place : Place) (text : String) :
    find? place nodes ≠ some (.link text) := by
  induction nodes with
  | nil => simp [find?]
  | cons entry rest ih =>
    obtain ⟨first, others⟩ := List.forall_mem_cons.mp each
    rw [find?]
    split
    · intro here
      simp [Option.some.inj here, Node.isLink] at first
    · exact ih others

theorem LinkFree.unlinked (free : disk.LinkFree) (path : String) : disk.Unlinked path := by
  intro parent name slash text _ link
  rw [node?] at link
  split at link
  · cases link
  · exact findNoLink free _ text link

theorem Unlinked.stable {before after : Disk} (same : SameWays before after) {path : String}
    (unlinked : before.Unlinked path) : after.Unlinked path := by
  intro parent name slash text located link
  exact unlinked parent name slash text (routeStable same.symm located)
    ((same.ways _ (.link text) rfl).mpr link)

theorem Unlinked.reached {path : String} (unlinked : disk.Unlinked path) :
    disk.reach path = .ok target ↔ disk.locate path = .ok target := by
  constructor
  · intro reached
    have routes := routesIff.mp reached
    rcases routes.resolves.unfollowed with same | ⟨parent, name, written, text, same, link⟩
    · exact routesIff.mpr ⟨routes.noNul, routes.nonempty, routes.short, same⟩
    · have located := routesIff.mpr ⟨routes.noNul, routes.nonempty, routes.short, same⟩
      exact absurd link (unlinked parent name written text located)
  · intro located
    have routes := routesIff.mp located
    refine routesIff.mpr ⟨routes.noNul, routes.nonempty, routes.short, ?_⟩
    apply routes.resolves.followed
    rintro parent name written text rfl
    exact unlinked parent name written text located

theorem reachNoLink {path : String} (reached : disk.reach path = .ok (.entry parent name slash)) :
    disk.node? (parent ++ [name]) ≠ some (.link text) := by
  intro link
  exact passedIff.mp (routesIff.mp reached).resolves.ofEntry.ends text link (.inl rfl)

section

variable {other : String} (here : ¬ (name = "." ∨ name = ".."))
  (there : ¬ (other = "." ∨ other = ".."))

include here there

/- The steps before a last name lead to the same place whatever the name is. -/
theorem advanceOther (leads : Leads disk false place (front ++ [name]) course) :
    (∃ parent, course = .last parent name ∧
      disk.advance false place (front ++ [other]) =
        if maxName < other.utf8ByteSize then .error .nameTooLong else .ok (.last parent other)) ∨
    ∃ parent text rest, course = .link parent text (rest ++ [name]) ∧
      disk.advance false place (front ++ [other]) = .ok (.link parent text (rest ++ [other])) := by
  have followedToo {place text} {rest : List String}
      (found : disk.followed? false place (rest ++ [name]) = some text) :
      disk.followed? false place (rest ++ [other]) = some text :=
    followedIff.mpr ⟨(followedIff.mp found).1, .inr (by simp)⟩
  have passedToo {place} {rest : List String}
      (passed : disk.followed? false place (rest ++ [name]) = none) :
      disk.followed? false place (rest ++ [other]) = none :=
    passedIff.mpr fun text link _ => passedIff.mp passed text link (.inr (by simp))
  induction front generalizing place with
  | nil =>
    cases leads with
    | dots directory dots later => exact absurd dots here
    | last directory named ends =>
      refine .inl ⟨place, rfl, ?_⟩
      simp only [List.nil_append, advance, directory, if_neg there, passedLast, if_true]
    | link directory named found => simpa using (followedIff.mp found).2
    | down directory named more none later => contradiction
  | cons first rest ih =>
    generalize same : first :: rest ++ [name] = names at leads
    cases leads with
    | directory => nomatch same
    | dots directory dots later =>
      cases same
      rw [List.cons_append, advanceDots directory dots]
      exact ih later
    | last directory named ends => simp at same
    | link directory named found =>
      cases same
      refine .inr ⟨place, _, rest, rfl, ?_⟩
      simp only [List.cons_append, advanceNamed directory named, followedToo found]
    | down directory named more passed later =>
      cases same
      rw [List.cons_append, advanceDown directory named (by simp) (passedToo passed)]
      exact ih later

theorem resolveOther
    (resolves : Resolves disk false links place (front ++ [name]) slash target) {written : Bool}
    (entry : target = .entry parent name written) (wanted : Bool) :
    disk.resolve false links place (front ++ [other]) wanted =
      if maxName < other.utf8ByteSize then .error .nameTooLong
      else .ok (.entry parent other wanted) := by
  generalize same : front ++ [name] = names at resolves
  induction resolves generalizing front wanted with
  | directory leads => nomatch entry
  | entry leads =>
    cases entry
    subst same
    rcases advanceOther here there leads with ⟨_, ⟨⟩, advanced⟩ | ⟨_, _, _, other, _⟩
    · rw [resolve, advanced]
      split <;> rfl
    · nomatch other
  | @link links place names slash origin text rest target leads something later ih =>
    subst same
    rcases advanceOther here there leads with ⟨_, other, _⟩ | ⟨_, _, others, same, advanced⟩
    · nomatch other
    · cases same
      have more : (others ++ [other]).isEmpty = false := by simp
      rw [resolve, advanced]
      simp only [Except.bind, if_neg something, more, Bool.false_and, Bool.or_false,
        ← List.append_assoc]
      exact ih entry wanted (List.append_assoc _ _ _)

end

end Disk
end RecordQuery
