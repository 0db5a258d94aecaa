import RecordQuery.Proofs.Json.Layout
import RecordQuery.Proofs.Storage.Passing

/-! Arrays passed on through a buffer, and what of them reaches the sink. The items spell the text
of their array, or its front up to the first item that cannot be written. The buffer does not show
in a delivery: its sink has the whole text if that fits, else as much of it as fits. -/
namespace RecordQuery

theorem Text.encodeConcat (front back : List Char) :
    encode (String.ofList (front ++ back)) =
      encode (String.ofList front) ++ encode (String.ofList back) := by
  rw [String.ofList_append, encodeAppend]

theorem Text.encodeFlatMap {α : Type} (items : List α) (text : α → List Char) :
    encode (String.ofList (items.flatMap text)) =
      items.flatMap fun item => encode (String.ofList (text item)) := by
  induction items with
  | nil => rfl
  | cons item rest ih => rw [List.flatMap_cons, encodeConcat, ih, List.flatMap_cons]

theorem Json.arrayBytes (value : Json) (rest : List Json) :
    (Json.array (value :: rest)).bytes =
      Text.encode "[" ++ (value.bytes ++
        (rest.flatMap (fun next => Text.encode "," ++ next.bytes) ++ Text.encode "]")) := by
  have opened (text : List Char) :
      Text.encode (String.ofList ('[' :: text)) =
        Text.encode "[" ++ Text.encode (String.ofList text) :=
    Text.encodeConcat ['['] text
  have separated : (fun next : Json => Text.encode (String.ofList (',' :: next.compact))) =
      fun next => Text.encode "," ++ next.bytes :=
    funext fun next => Text.encodeConcat [','] next.compact
  rw [bytes, arrayCompact, opened, Text.encodeConcat, Text.encodeConcat, Text.encodeFlatMap,
    separated]
  rfl

theorem Item.split (items : List Item) :
    (∃ values : List Json, items = values.map .value) ∨
      ∃ (values : List Json) (reason : String) (rest : List Item),
        items = values.map .value ++ .unwritable reason :: rest := by
  induction items with
  | nil => exact .inl ⟨[], rfl⟩
  | cons item rest ih =>
    cases item with
    | unwritable reason => exact .inr ⟨[], reason, rest, rfl⟩
    | value value =>
      rcases ih with ⟨values, rfl⟩ | ⟨values, reason, later, rfl⟩
      · exact .inl ⟨value :: values, rfl⟩
      · exact .inr ⟨value :: values, reason, later, rfl⟩

theorem Json.bytesAndComma (values : List Json) :
    (values.flatMap fun value => Text.encode "," ++ value.bytes) ++ Text.encode "," =
      Text.encode "," ++ values.flatMap fun value => value.bytes ++ Text.encode "," := by
  induction values with
  | nil => rfl
  | cons value rest ih =>
    rw [List.flatMap_cons, List.append_assoc, ih, List.flatMap_cons]
    simp only [List.append_assoc]

namespace Buffer

def opening (values : List Json) : Bytes :=
  Text.encode "[" ++ values.flatMap fun value => value.bytes ++ Text.encode ","

/- What writing some items comes to if the sink takes all of it: the text of the whole array and
the count of its items, or the text up to the first item that cannot be written. -/
inductive Spells : List Item → Except WriteError Nat → Bytes → Prop where
  | whole (values : List Json) :
      Spells (values.map .value) (.ok values.length) (Json.array values).bytes
  | upTo (values : List Json) (reason : String) (rest : List Item) :
      Spells (values.map .value ++ .unwritable reason :: rest) (.error (.unwritable reason))
        (opening values)

def between (values : List Json) : List Bytes :=
  values.flatMap fun value => [Text.encode ",", value.bytes]

theorem betweenFlatten (values : List Json) :
    (between values).flatten = values.flatMap fun value => Text.encode "," ++ value.bytes := by
  rw [between, ← List.flatMap_id, List.flatMap_assoc]
  simp

theorem betweenChunks (values : List Json) :
    ((values.map Item.value).flatMap fun item => [.ok (Text.encode ","), item.bytes]) =
      (between values).map .ok := by
  simp [between, Item.bytes, List.flatMap_map, List.map_flatMap]

theorem valueParts (values : List Json) :
    ∃ parts : List Bytes, chunks (values.map .value) = parts.map .ok ∧
      parts.flatten = (Json.array values).bytes := by
  cases values with
  | nil => exact ⟨[Text.encode "[", Text.encode "]"], rfl, rfl⟩
  | cons value rest =>
    refine ⟨Text.encode "[" :: value.bytes :: (between rest ++ [Text.encode "]"]), ?_, ?_⟩
    · simp only [chunks, List.map_cons, betweenChunks, List.map_append]
      rfl
    · simp [Json.arrayBytes, betweenFlatten]

theorem openingParts (values : List Json) (reason : String) (rest : List Item) :
    ∃ (parts : List Bytes) (later : List (Except WriteError Bytes)),
      chunks (values.map .value ++ .unwritable reason :: rest) =
        parts.map .ok ++ .error (.unwritable reason) :: later ∧
      parts.flatten = opening values := by
  cases values with
  | nil => exact ⟨[Text.encode "["], _, rfl, rfl⟩
  | cons value others =>
    refine ⟨Text.encode "[" :: value.bytes :: (between others ++ [Text.encode ","]),
      (rest.flatMap fun item => [.ok (Text.encode ","), item.bytes]) ++ [.ok (Text.encode "]")],
      ?_, ?_⟩
    · simp only [chunks, List.map_cons, List.cons_append, List.flatMap_append, betweenChunks,
        List.flatMap_cons, List.map_append, List.append_assoc]
      rfl
    · simp [opening, betweenFlatten, ← Json.bytesAndComma]

theorem wantedChunks (items : List Item) :
    ∃ result bytes, Spells items result bytes ∧
      wanted (chunks items) = (bytes, result.map fun _ => ()) := by
  rcases Item.split items with ⟨values, rfl⟩ | ⟨values, reason, rest, rfl⟩
  · obtain ⟨parts, made, whole⟩ := valueParts values
    refine ⟨_, _, .whole values, ?_⟩
    have all := wantedAppend parts []
    simp only [List.append_nil, wanted, whole] at all
    rw [made, all]
    rfl
  · obtain ⟨parts, later, made, front⟩ := openingParts values reason rest
    refine ⟨_, _, .upTo values reason rest, ?_⟩
    rw [made, wantedAppend, wanted, List.append_nil, front]
    rfl

theorem Spells.count {items : List Item} {result : Except WriteError Nat} {bytes : Bytes}
    (spelled : Spells items result bytes) :
    (result.map fun _ => ()).map (fun () => items.length) = result := by
  cases spelled with
  | whole values => simp [Except.map]
  | upTo values reason rest => rfl

theorem writeArrayPassed {buffer : Buffer} (bounded : buffer.Bounded) (items : List Item) :
    ∃ result bytes, Spells items result bytes ∧
      Passed buffer bytes result (buffer.writeArray items) := by
  obtain ⟨result, bytes, spelled, whole⟩ := wantedChunks items
  have pushed := (pushAllPassed bounded (chunks items)).map fun () => items.length
  rw [whole, spelled.count] at pushed
  exact ⟨result, bytes, spelled, pushed⟩

theorem spellsValues {values : List Json} {result : Except WriteError Nat} {bytes : Bytes}
    (spelled : Spells (values.map .value) result bytes) :
    result = .ok values.length ∧ bytes = (Json.array values).bytes := by
  generalize items : values.map Item.value = spelt at spelled
  cases spelled with
  | whole others =>
    obtain rfl := (List.map_inj_right fun _ _ => Item.value.inj).mp items
    exact ⟨rfl, rfl⟩
  | upTo others reason rest =>
    have member : Item.unwritable reason ∈ values.map Item.value := by
      rw [items]
      exact List.mem_append_right _ List.mem_cons_self
    obtain ⟨_, _, other⟩ := List.mem_map.mp member
    nomatch other

inductive Delivered (sink : Sink) (items : List Item) : Except WriteError Unit × Sink → Prop where
  | whole {values : List Json} {after} (same : items = values.map .value)
      (limit : after.limit = sink.limit) (within : after.Within)
      (content : after.content = sink.content ++ (Json.array values).bytes) :
      Delivered sink items (.ok (), after)
  | cut {result taken refused after} (spelled : Spells items result (taken ++ refused))
      (nonempty : refused ≠ []) (limit : after.limit = sink.limit) (full : after.Full)
      (content : after.content = sink.content ++ taken) :
      Delivered sink items (.error (.io .full), after)
  | unwritable {bytes reason after} (spelled : Spells items (.error (.unwritable reason)) bytes) :
      Delivered sink items (.error (.unwritable reason), after)

theorem Extends.sinkFront {sink : Sink} {capacity : Nat} {after : Buffer} {added : Bytes}
    (reached : Extends (new capacity sink) after added) :
    ∃ taken, after.sink.content = sink.content ++ taken ∧ taken ++ after.held = added := by
  obtain ⟨taken, content⟩ := reached.grows
  have same : sink.content ++ taken = after.sink.content := content
  refine ⟨taken, same.symm, ?_⟩
  have text := reached.text
  simp only [Buffer.text, new, List.append_nil, ← same, List.append_assoc] at text
  exact List.append_cancel_left text

theorem delivered {sink : Sink} (within : sink.Within) (capacity : Nat) (items : List Item) :
    Delivered sink items (deliver capacity sink items) := by
  have start : (new capacity sink).Bounded := ⟨Nat.zero_le _, within⟩
  obtain ⟨result, bytes, spelled, passed⟩ := writeArrayPassed start items
  unfold deliver
  generalize (new capacity sink).writeArray items = outcome at passed ⊢
  cases passed with
  | cut parts nonempty reached full =>
    obtain ⟨taken, content, front⟩ := reached.sinkFront
    rw [parts, ← front, List.append_assoc] at spelled
    exact .cut spelled (List.append_ne_nil_of_right_ne_nil _ nonempty) reached.limit full content
  | @whole written reached =>
    cases spelled with
    | upTo values reason rest => exact .unwritable (.upTo values reason rest)
    | whole values =>
      have flushing := flushed reached.bounded
      dsimp only
      generalize written.flush = outcome at flushing ⊢
      cases flushing with
      | done later empty =>
        have both := reached.trans later
        obtain ⟨taken, content, front⟩ := both.sinkFront
        rw [empty, List.append_nil, List.append_nil] at front
        rw [front] at content
        exact .whole rfl both.limit both.bounded.sink content
      | stopped later left full =>
        have both := reached.trans later
        obtain ⟨taken, content, front⟩ := both.sinkFront
        rw [List.append_nil] at front
        have spelled := Spells.whole values
        rw [← front] at spelled
        exact .cut spelled left both.limit full content

theorem deliverWhole {capacity : Nat} {sink after : Sink} {items : List Item}
    (within : sink.Within) (went : deliver capacity sink items = (.ok (), after)) :
    ∃ values : List Json, items = values.map .value ∧
      after.content = sink.content ++ (Json.array values).bytes := by
  have source := delivered within capacity items
  rw [went] at source
  cases source with
  | whole same limit within content => exact ⟨_, same, content⟩

inductive Arrives (text : Bytes) (limit : Option Nat) : Except WriteError Unit × Sink → Prop where
  | whole (fits : ∀ most, limit = some most → text.length ≤ most) :
      Arrives text limit (.ok (), ⟨text, limit⟩)
  | cut {taken refused} (parts : text = taken ++ refused) (nonempty : refused ≠ [])
      (full : limit = some taken.length) : Arrives text limit (.error (.io .full), ⟨taken, limit⟩)

theorem deliverArrives (capacity : Nat) (limit : Option Nat) (values : List Json) :
    Arrives (Json.array values).bytes limit
      (deliver capacity (Sink.empty limit) (values.map .value)) := by
  have source := delivered (Sink.emptyWithin limit) capacity (values.map .value)
  generalize deliver capacity (Sink.empty limit) (values.map .value) = outcome at source ⊢
  cases source with
  | @whole others after same limited within content =>
    obtain rfl := (List.map_inj_right fun _ _ => Item.value.inj).mp same
    obtain ⟨reached, bound⟩ := after
    simp only [Sink.empty, List.nil_append] at limited content
    subst limited content
    exact .whole within
  | @cut result taken refused after spelled nonempty limited full content =>
    obtain ⟨reached, bound⟩ := after
    simp only [Sink.empty, List.nil_append] at limited content
    subst limited content
    exact .cut (spellsValues spelled).2.symm nonempty full
  | unwritable spelled =>
    have result := (spellsValues spelled).1
    contradiction

theorem deliverUnlimited (capacity : Nat) (values : List Json) :
    deliver capacity (Sink.empty none) (values.map .value) =
      (.ok (), ⟨(Json.array values).bytes, none⟩) := by
  have arrived := deliverArrives capacity none values
  generalize deliver capacity (Sink.empty none) (values.map .value) = outcome at arrived ⊢
  cases arrived with
  | whole fits => rfl
  | cut parts nonempty full => contradiction

/-- The capacity does not occur in what a delivery comes to: it is that of one write of the whole
text. -/
theorem deliverWithinLimit (capacity : Nat) (limit : Option Nat) (values : List Json) :
    deliver capacity (Sink.empty limit) (values.map .value) =
      match limit with
      | none => (.ok (), ⟨(Json.array values).bytes, none⟩)
      | some most =>
        if (Json.array values).bytes.length ≤ most then
          (.ok (), ⟨(Json.array values).bytes, some most⟩)
        else (.error (.io .full), ⟨(Json.array values).bytes.take most, some most⟩) := by
  have arrived := deliverArrives capacity limit values
  generalize deliver capacity (Sink.empty limit) (values.map .value) = outcome at arrived ⊢
  cases arrived with
  | whole fits =>
    cases limit with
    | none => rfl
    | some most => exact (if_pos (fits most rfl)).symm
  | cut parts nonempty full =>
    subst full
    have long := List.length_pos_iff.mpr nonempty
    simp only [parts, List.length_append, List.take_left]
    rw [if_neg (by omega)]

end Buffer
end RecordQuery
