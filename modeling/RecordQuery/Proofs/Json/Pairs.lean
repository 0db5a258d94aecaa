import RecordQuery.Proofs.Json.Layout
import RecordQuery.Proofs.Json.Reading
import RecordQuery.Proofs.Record

/-! Records from pairs. However often a key comes, it has one field: in the place of its first pair
and with the value of its last. An object is read pair by pair as well, so that a text in which all
the pairs stand is read as the same record, if the reader restores the doubles of the pairs. -/
namespace RecordQuery

namespace Fields

variable {pairs fields : Fields} {key other : String} {value : Json}

def Last (pairs : Fields) (key : String) (value : Json) : Prop :=
  ∃ front back, pairs = front ++ (key, value) :: back ∧ key ∉ back.map Prod.fst

structure Collected (pairs fields : Fields) : Prop where
  once : (fields.map Prod.fst).Nodup
  keys : fields.map Prod.fst = (pairs.map Prod.fst).eraseDups
  found : ∀ key value, fields.get? key = some value ↔ Last pairs key value

theorem lastConcat {latest : Json} : Last (pairs ++ [(other, latest)]) key value ↔
    if other = key then value = latest else Last pairs key value := by
  constructor
  · rintro ⟨front, back, same, fresh⟩
    rcases List.eq_nil_or_concat back with rfl | ⟨later, pair, rfl⟩
    · obtain ⟨_, last⟩ := List.append_inj' same rfl
      cases last
      rw [if_pos rfl]
    · rw [List.concat_eq_append, ← List.cons_append, ← List.append_assoc] at same
      obtain ⟨rfl, last⟩ := List.append_inj' same rfl
      cases last
      simp only [List.concat_eq_append, List.map_append, List.mem_append, not_or] at fresh
      rw [if_neg fun here => fresh.2 (by simp [here])]
      exact ⟨front, later, rfl, fresh.1⟩
  · split
    · rename_i here
      rintro rfl
      subst here
      exact ⟨pairs, [], rfl, nofun⟩
    · rename_i apart
      rintro ⟨front, back, rfl, fresh⟩
      refine ⟨front, back ++ [(other, latest)], by simp, ?_⟩
      simpa [fresh] using fun here => apart here.symm

theorem getInsert (latest : Json) (fields : Fields) : get? key (insert other latest fields) =
    if other = key then some latest else get? key fields := by
  split
  · rename_i here
    subst here
    exact getInsertSame other latest fields
  · rename_i apart
    exact getInsertOther apart latest fields

theorem firstsConcat (keys : List String) (key : String) : (keys ++ [key]).eraseDups =
    if key ∈ keys then keys.eraseDups else keys.eraseDups ++ [key] := by
  rw [List.eraseDups_append]
  split <;> simp_all [List.removeAll, List.eraseDups_cons]

theorem Collected.next (collected : Collected pairs fields) (key : String) (value : Json) :
    Collected (pairs ++ [(key, value)]) (insert key value fields) := by
  constructor
  case once => exact insertDistinct collected.once key value
  case keys =>
    simp only [keysInsert, collected.keys, List.map_append, List.map_singleton, firstsConcat,
      List.mem_eraseDups]
  case found =>
    intro other latest
    rw [getInsert, lastConcat, ← collected.found]
    split <;> simp [eq_comm]

theorem Collected.run (collected : Collected pairs fields) (later : Fields) :
    Collected (pairs ++ later) (insertAll later fields) := by
  induction later generalizing pairs fields with
  | nil => simpa [insertAll] using collected
  | cons pair rest ih => simpa [insertAll] using ih (collected.next pair.1 pair.2)

theorem collected (pairs : Fields) : Collected pairs (ofPairs pairs) := by
  have start : Collected [] [] := by
    refine ⟨List.nodup_nil, rfl, fun key value => ⟨nofun, ?_⟩⟩
    rintro ⟨front, back, same, _⟩
    simp at same
  exact start.run pairs

theorem lastOfKey (member : key ∈ pairs.map Prod.fst) : ∃ value, Last pairs key value := by
  induction pairs with
  | nil => contradiction
  | cons pair rest ih =>
    by_cases later : key ∈ rest.map Prod.fst
    · obtain ⟨value, front, back, rfl, fresh⟩ := ih later
      exact ⟨value, pair :: front, back, rfl, fresh⟩
    · rcases List.mem_cons.mp member with rfl | inside
      · exact ⟨pair.2, [], rest, rfl, later⟩
      · exact absurd inside later

theorem Last.member (last : Last pairs key value) : key ∈ pairs.map Prod.fst := by
  obtain ⟨front, back, rfl, _⟩ := last
  simp

theorem memIff (once : (fields.map Prod.fst).Nodup) :
    (key, value) ∈ fields ↔ fields.get? key = some value := by
  induction fields with
  | nil => simp [get?]
  | cons field rest ih =>
    obtain ⟨fresh, others⟩ := List.nodup_cons.mp once
    rw [List.mem_cons, get?]
    split
    · rename_i here
      subst here
      have absent : (field.1, value) ∉ rest := fun member =>
        fresh (List.mem_map.mpr ⟨_, member, rfl⟩)
      simp [absent, Prod.ext_iff, eq_comm]
    · rename_i apart
      have other : (key, value) ≠ field := fun same => apart (congrArg Prod.fst same).symm
      simp [other, ih others]

theorem Collected.missing (collected : Collected pairs fields) (key : String) :
    fields.get? key = none ↔ key ∉ pairs.map Prod.fst := by
  rw [Option.eq_none_iff_forall_ne_some]
  simp only [ne_eq, collected.found]
  constructor
  · intro none member
    obtain ⟨value, last⟩ := lastOfKey member
    exact none value last
  · exact fun fresh value last => fresh last.member

end Fields

namespace Json

variable {pairs : Fields}

def innerLevels : Nat := maxDepth - 2

theorem pairsTaken (each : ∀ pair ∈ pairs, Storable innerLevels pair.2) :
    ofTokens? (tokens (.array [.object pairs])) = some (.array [.object (Fields.ofPairs pairs)]) := by
  let inner : List Open := [.array []]
  have object : Takes (.within inner .value) (tokens (.object pairs))
      (.within [.array [.object (Fields.ofPairs pairs)]] .separator) := by
    refine takesObject (by decide) (fun pair member before key => ?_) rfl
    exact (each pair member).taken (Nat.le_refl maxDepth)
  have whole : Takes Progress.start (tokens (.array [.object pairs]))
      (.done (.array [.object (Fields.ofPairs pairs)])) :=
    .cons rfl ((takesFirst object).append (.one rfl))
  rw [ofTokens?, whole]
  rfl

theorem pairsLaid {text : Nat → Json → List Char} (layout : IsLayout text)
    (each : ∀ pair ∈ pairs, Storable innerLevels pair.2) (depth : Nat) :
    Laid (text depth (.array [.object pairs])) (tokens (.array [.object pairs])) := by
  obtain ⟨inner, outer, innerSpaces, outerSpaces, array⟩ := layout.array depth [.object pairs]
  obtain ⟨first, last, blank, firstSpaces, lastSpaces, blankSpaces, object⟩ :=
    layout.object (depth + 1) pairs
  have laid : Laid (text (depth + 1) (.object pairs)) (tokens (.object pairs)) := by
    rw [object]
    exact objectLaid firstSpaces lastSpaces blankSpaces fun pair member =>
      layout.laid (each pair member) _
  rw [array]
  refine arrayLaid innerSpaces outerSpaces fun item member => ?_
  rwa [List.mem_singleton.mp member]

end Json

namespace Record

variable {pairs : Fields}

structure Collects (record : Record) (pairs : Fields) : Prop where
  once : (record.fields.map Prod.fst).Nodup
  keys : record.fields.map Prod.fst = (pairs.map Prod.fst).eraseDups
  values : ∀ key value, (key, value) ∈ record.fields ↔ Fields.Last pairs key value
  found : ∀ key value, record.get? key = some value ↔ Fields.Last pairs key value
  missing : ∀ key, record.get? key = none ↔ key ∉ pairs.map Prod.fst

theorem collects (pairs : Fields) : (ofPairs pairs).Collects pairs := by
  have collected := Fields.collected pairs
  refine ⟨collected.once, collected.keys, fun key value => ?_, collected.found, collected.missing⟩
  exact (Fields.memIff collected.once).trans (collected.found key value)

theorem pairsRead {reader : DoubleReader} {text : List Char}
    (each : ∀ pair ∈ pairs, Json.Storable Json.innerLevels pair.2)
    (restored : (Json.object pairs).Restored reader)
    (lays : Json.Lays text (Json.tokens (.array [.object pairs]))) :
    readAll? reader (Text.encode (String.ofList text)) = some [ofPairs pairs] := by
  refine readAllIff.mpr ⟨_, rfl, ?_⟩
  rw [String.toList_ofList, Json.ofText?, lays.read restored.one.token, Option.bind_some,
    Json.pairsTaken each]
  rfl

theorem collectedAsRead (reader : DoubleReader) (pairs : Fields) :
    (ofPairs pairs).Collects pairs ∧
      ((∀ pair ∈ pairs, Json.Storable Json.innerLevels pair.2) →
        (Json.object pairs).Restored reader →
        readAll? reader (Json.array [.object pairs]).bytes = some [ofPairs pairs] ∧
        ∀ text, Json.Lays text (Json.tokens (.array [.object pairs])) →
          readAll? reader (Text.encode (String.ofList text)) = some [ofPairs pairs]) := by
  refine ⟨collects pairs, fun each restored => ⟨?_, fun text => pairsRead each restored⟩⟩
  have laid := Json.pairsLaid Json.compactLayout each 0 [] [] nofun .nil
  rw [List.append_nil, List.append_nil] at laid
  exact pairsRead each restored laid

theorem collectedAsReadAgain :
    let half : Json := .number (.double (Binary64.ofBits 0x3FE0000000000000))
    let pairs : Fields := [("a\n", .null), ("b", .object [("a\n", half)]),
      ("a\n", .number (.integer 7))]
    (∀ pair ∈ pairs, Json.Storable Json.innerLevels pair.2) ∧
      (Json.object pairs).Restored .nearest ∧
      ofPairs pairs = ⟨[("a\n", .number (.integer 7)), ("b", .object [("a\n", half)])]⟩ ∧
      readAll? .nearest (Json.array [.object pairs]).bytes = some [ofPairs pairs] ∧
      (ofPairs pairs).get? "c" = none := by
  intro half pairs
  have each : ∀ pair ∈ pairs, Json.Storable (124 + 1) pair.2 := by
    simp [pairs, half, Json.Storable.null]
    decide
  have restored : (Json.object pairs).Restored .nearest := by
    intro x member
    simp [pairs, half, Json.tokens, Json.tokensOfFields] at member
    subst member
    exact DoubleReader.nearestRestores (by decide)
  have both := collectedAsRead .nearest pairs
  exact ⟨each, restored, rfl, (both.2 each restored).1, (both.1.missing "c").mpr (by decide)⟩

end Record
end RecordQuery
