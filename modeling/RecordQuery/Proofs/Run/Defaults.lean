import RecordQuery.Proofs.Query.Numeral
import RecordQuery.Run

/-! What settings fill in. A blank query is replaced before it is read, and the texts replaced are
exactly those in which the reading finds no first word, so that nothing is refused for want of a
count. Settings once made are complete, and complete ones are made again as they are. -/
namespace RecordQuery

open Text (Blanks)

namespace Query

variable {strictness : Strictness} {text : String}

theorem emptyCountIff :
    ofText strictness text = .error (.invalidCount "") ↔ Blanks text.toList := by
  constructor
  · intro refused
    obtain ⟨word, after, first, _, same⟩ := invalidCountSource refused
    have none : word = [] := String.ofList_injective same.symm
    exact first.noneIff.mp none
  · intro blanks
    obtain ⟨word, after, first⟩ := Text.firstWord text.toList
    cases first.noneIff.mpr blanks
    exact (invalidCountIff first).mpr rfl

end Query

namespace Settings

variable {settings : Settings}

theorem defaultQueryReads (strictness : Strictness) :
    Query.ofText strictness defaultQuery = .ok ⟨.all, none⟩ :=
  Query.ofSpelled (@Query.spelledChars strictness ⟨.all, none⟩ nofun)

theorem makeQuery (query input output : String) (strictness : Strictness) :
    (make query input output strictness).query =
      if Blanks query.toList then defaultQuery else query := by
  simp only [make, Text.trimNil]

theorem readQueryMade (query input output : String) (strictness : Strictness) :
    (make query input output strictness).readQuery =
      if Blanks query.toList then .ok ⟨.all, none⟩
      else (Query.ofText strictness query).mapError .query := by
  rw [readQuery, makeQuery]
  split
  · rw [defaultQueryReads]
    rfl
  · rfl

structure Complete (settings : Settings) : Prop where
  query : ¬ Blanks settings.query.toList
  input : settings.input ≠ ""
  output : settings.output ≠ ""

theorem filledPath {path standIn : String} (there : standIn ≠ "") :
    (if path = "" then standIn else path) ≠ "" := by
  split
  · exact there
  · assumption

theorem madeComplete (query input output : String) (strictness : Strictness) :
    Complete (make query input output strictness) := by
  constructor
  case query =>
    rw [makeQuery]
    split
    · decide
    · assumption
  case input => exact filledPath (by decide)
  case output => exact filledPath (by decide)

theorem Complete.made (complete : Complete settings) :
    make settings.query settings.input settings.output settings.strictness = settings := by
  simp only [make, Text.trimNil, if_neg complete.query, if_neg complete.input,
    if_neg complete.output]

theorem Complete.counted (complete : Complete settings) :
    settings.readQuery ≠ .error (.query (.invalidCount "")) := by
  intro refused
  obtain ⟨cause, wrong, same⟩ := Result.mapErrorError.mp refused
  cases same
  exact complete.query (Query.emptyCountIff.mp wrong)

structure Made (strictness : Strictness) (query : String) (settings : Settings) : Prop where
  asks : settings.readQuery =
    if Blanks query.toList then .ok ⟨.all, none⟩
    else (Query.ofText strictness query).mapError .query
  blank : Query.ofText strictness query = .error (.invalidCount "") ↔ Blanks query.toList
  counted : settings.readQuery ≠ .error (.query (.invalidCount ""))
  again : make settings.query settings.input settings.output settings.strictness = settings

theorem blankAsksForAll (query input output : String) (strictness : Strictness) :
    Made strictness query (make query input output strictness) := by
  have complete := madeComplete query input output strictness
  have asked := readQueryMade query input output strictness
  exact ⟨asked, Query.emptyCountIff, complete.counted, complete.made⟩

example : (make "\u200b" "" "" .lenient).readQuery = .error (.query (.invalidCount "\u200b")) := by
  decide +kernel

end Settings
end RecordQuery
