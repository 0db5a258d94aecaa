import RecordQuery.Proofs.Json.Assembly

/-! Texts that lay out the tokens of a value. Spaces between the tokens are skipped, so that of a
way of writing values it is enough to know that it puts nothing else there: compact text has no
spaces, pretty text has line breaks and indentation, and from both the value is read back. -/
namespace RecordQuery.Json

open Token (Ends)

def Spaces (gap : List Char) : Prop := ∀ c ∈ gap, Token.isSpace c

/-- A text that consists of the texts of some tokens and spaces between and around them. -/
inductive Lays : List Char → List Token → Prop where
  | nil : Lays [] []
  | space {c text spelled} (space : Token.isSpace c) (later : Lays text spelled) :
      Lays (c :: text) spelled
  | token {token text spelled} (storable : token.Storable) (ends : token.isRun → Ends text)
      (later : Lays text spelled) : Lays (token.chars ++ text) (token :: spelled)

def Laid (front : List Char) (read : List Token) : Prop :=
  ∀ text spelled, Ends text → Lays text spelled → Lays (front ++ text) (read ++ spelled)

def Parts (front : List Char) : Prop := ∀ text, Ends text → Ends (front ++ text)

section

variable {text front back pad : List Char} {spelled named more : List Token} {c : Char}
  {reader : DoubleReader}

theorem Lays.read (lays : Lays text spelled)
    (restored : ∀ token ∈ spelled, token.Restored reader) :
    tokens? reader text = some spelled := by
  induction lays with
  | nil => rw [tokens?]
  | space space later ih => rw [tokens?, if_pos space, ih restored]
  | token storable ends later ih =>
    obtain ⟨first, others⟩ := List.forall_mem_cons.mp restored
    rw [tokensNext storable first ends, ih others, Option.map_some]

theorem Lays.gap (spaces : Spaces pad) (later : Lays text spelled) :
    Lays (pad ++ text) spelled := by
  induction pad with
  | nil => exact later
  | cons c rest ih =>
    obtain ⟨first, others⟩ := List.forall_mem_cons.mp spaces
    exact .space first (ih others)

theorem Parts.mark (apart : Token.isNumeric c = false ∧ c.isAlpha = false) :
    Parts (c :: front) := by
  intro text ends d head
  cases Option.some.inj head
  exact apart

theorem Spaces.parts (spaces : Spaces pad) : Parts pad := by
  intro text ends
  cases pad with
  | nil => exact ends
  | cons c rest =>
    have space := spaces c List.mem_cons_self
    simp only [Token.isSpace, Bool.or_eq_true, beq_iff_eq] at space
    rcases space with ((rfl | rfl) | rfl) | rfl <;> exact Parts.mark ⟨rfl, rfl⟩ text ends

theorem Parts.append (first : Parts front) (second : Parts back) : Parts (front ++ back) := by
  intro text ends
  rw [List.append_assoc]
  exact first _ (second text ends)

theorem Laid.nil : Laid [] [] := fun _ _ _ later => later

theorem Laid.one (token : Token) (storable : token.Storable) : Laid token.chars [token] :=
  fun _ _ ends later => .token storable (fun _ => ends) later

theorem Laid.gap (spaces : Spaces pad) (laid : Laid back named) : Laid (pad ++ back) named := by
  intro text spelled ends later
  rw [List.append_assoc]
  exact (laid text spelled ends later).gap spaces

theorem Laid.alone {token : Token} (storable : token.Storable) (alone : token.isRun = false)
    (laid : Laid back named) : Laid (token.chars ++ back) (token :: named) := by
  intro text spelled ends later
  rw [List.append_assoc]
  refine .token storable (fun run => ?_) (laid text spelled ends later)
  rw [alone] at run
  contradiction

theorem Laid.mark (mark : Token) (same : mark.chars = [c]) (storable : mark.Storable)
    (alone : mark.isRun = false) (laid : Laid back named) : Laid (c :: back) (mark :: named) := by
  have marked := laid.alone storable alone
  rwa [same] at marked

theorem Laid.append (first : Laid front named) (second : Laid back more) (parts : Parts back) :
    Laid (front ++ back) (named ++ more) := by
  intro text spelled ends later
  rw [List.append_assoc, List.append_assoc]
  exact first _ _ (parts text ends) (second text spelled ends later)

end

section

variable (inner outer blank : List Char) (text : Json → List Char)

def itemsText (items : List Json) : List Char :=
  items.flatMap fun item => ',' :: (inner ++ text item)

def arrayText : List Json → List Char
  | [] => ['[', ']']
  | item :: rest =>
    '[' :: (inner ++ (text item ++ (itemsText inner text rest ++ (outer ++ [']']))))

def fieldText (field : String × Json) : List Char :=
  (Token.string field.1).chars ++ ':' :: (blank ++ text field.2)

def fieldsText (fields : Fields) : List Char :=
  fields.flatMap fun field => ',' :: (inner ++ fieldText blank text field)

def objectText : Fields → List Char
  | [] => ['\x7b', '\x7d']
  | field :: rest =>
    '\x7b' :: (inner ++ (fieldText blank text field ++
      (fieldsText inner blank text rest ++ (outer ++ ['\x7d']))))

end

section

variable {inner outer blank : List Char} {text : Json → List Char}

theorem itemsTextCons (item : Json) (rest : List Json) :
    itemsText inner text (item :: rest) =
      ',' :: (inner ++ (text item ++ itemsText inner text rest)) := by
  rw [itemsText, List.flatMap_cons, List.cons_append, List.append_assoc]
  rfl

theorem fieldsTextCons (field : String × Json) (rest : Fields) :
    fieldsText inner blank text (field :: rest) =
      ',' :: (inner ++ (fieldText blank text field ++ fieldsText inner blank text rest)) := by
  rw [fieldsText, List.flatMap_cons, List.cons_append, List.append_assoc]
  rfl

theorem itemsParts (items : List Json) : Parts (itemsText inner text items) := by
  cases items with
  | nil => exact fun _ ends => ends
  | cons item rest => exact .mark ⟨rfl, rfl⟩

theorem fieldsParts (fields : Fields) : Parts (fieldsText inner blank text fields) := by
  cases fields with
  | nil => exact fun _ ends => ends
  | cons field rest => exact .mark ⟨rfl, rfl⟩

theorem itemsLaid (spaces : Spaces inner) {items : List Json}
    (each : ∀ item ∈ items, Laid (text item) (tokens item)) :
    Laid (itemsText inner text items) (tokensOfItems items) := by
  induction items with
  | nil => exact .nil
  | cons item rest ih =>
    obtain ⟨first, others⟩ := List.forall_mem_cons.mp each
    have laid := (first.append (ih others) (itemsParts rest)).gap spaces
    rw [itemsTextCons]
    exact laid.mark .comma rfl trivial rfl

theorem fieldLaid (spaces : Spaces blank) {field : String × Json}
    (laid : Laid (text field.2) (tokens field.2)) :
    Laid (fieldText blank text field) (.string field.1 :: .colon :: tokens field.2) := by
  have colon := (laid.gap spaces).mark .colon rfl trivial rfl
  exact colon.alone trivial rfl

theorem fieldsLaid (innerSpaces : Spaces inner) (blankSpaces : Spaces blank) {fields : Fields}
    (each : ∀ field ∈ fields, Laid (text field.2) (tokens field.2)) :
    Laid (fieldsText inner blank text fields) (tokensOfFields fields) := by
  induction fields with
  | nil => exact .nil
  | cons field rest ih =>
    obtain ⟨first, others⟩ := List.forall_mem_cons.mp each
    have whole := (fieldLaid blankSpaces first).append (ih others) (fieldsParts rest)
    rw [fieldsTextCons]
    exact (whole.gap innerSpaces).mark .comma rfl trivial rfl

theorem arrayLaid (innerSpaces : Spaces inner) (outerSpaces : Spaces outer) {items : List Json}
    (each : ∀ item ∈ items, Laid (text item) (tokens item)) :
    Laid (arrayText inner outer text items) (tokens (.array items)) := by
  have close : Laid [']'] [.closeArray] := .one .closeArray trivial
  cases items with
  | nil => exact close.mark .openArray rfl trivial rfl
  | cons item rest =>
    obtain ⟨first, others⟩ := List.forall_mem_cons.mp each
    have closed : Parts (outer ++ [']']) := .append outerSpaces.parts (.mark ⟨rfl, rfl⟩)
    have later := (itemsLaid innerSpaces others).append (close.gap outerSpaces) closed
    have whole := first.append later ((itemsParts rest).append closed)
    exact (whole.gap innerSpaces).mark .openArray rfl trivial rfl

theorem objectLaid (innerSpaces : Spaces inner) (outerSpaces : Spaces outer)
    (blankSpaces : Spaces blank) {fields : Fields}
    (each : ∀ field ∈ fields, Laid (text field.2) (tokens field.2)) :
    Laid (objectText inner outer blank text fields) (tokens (.object fields)) := by
  have close : Laid ['\x7d'] [.closeObject] := .one .closeObject trivial
  cases fields with
  | nil => exact close.mark .openObject rfl trivial rfl
  | cons field rest =>
    obtain ⟨first, others⟩ := List.forall_mem_cons.mp each
    have closed : Parts (outer ++ ['\x7d']) := .append outerSpaces.parts (.mark ⟨rfl, rfl⟩)
    have later := (fieldsLaid innerSpaces blankSpaces others).append (close.gap outerSpaces) closed
    have whole := (fieldLaid blankSpaces first).append later ((fieldsParts rest).append closed)
    exact (whole.gap innerSpaces).mark .openObject rfl trivial rfl

end

/-- A way of writing values at some depth that puts nothing but spaces between the tokens. -/
structure IsLayout (text : Nat → Json → List Char) : Prop where
  plain : ∀ depth value token, tokens value = [token] → text depth value = token.chars
  array : ∀ depth items, ∃ inner outer, Spaces inner ∧ Spaces outer ∧
    text depth (.array items) = arrayText inner outer (text (depth + 1)) items
  object : ∀ depth fields, ∃ inner outer blank, Spaces inner ∧ Spaces outer ∧ Spaces blank ∧
    text depth (.object fields) = objectText inner outer blank (text (depth + 1)) fields

section

variable {text : Nat → Json → List Char} {value : Json}

theorem IsLayout.laid (layout : IsLayout text) {levels : Nat} (storable : Storable levels value)
    (depth : Nat) : Laid (text depth value) (tokens value) := by
  have one (token) {value} (same : tokens value = [token]) (storable : token.Storable)
      (depth : Nat) : Laid (text depth value) (tokens value) := by
    rw [layout.plain depth value token same, same]
    exact .one token storable
  induction storable generalizing depth with
  | null => exact one .null rfl trivial depth
  | bool value => exact one (.bool value) rfl trivial depth
  | @number levels value storable => exact one (.number value) rfl storable depth
  | string value => exact one (.string value) rfl trivial depth
  | @array levels items each ih =>
    obtain ⟨inner, outer, innerSpaces, outerSpaces, same⟩ := layout.array depth items
    rw [same]
    exact arrayLaid innerSpaces outerSpaces fun item member => ih item member (depth + 1)
  | @object levels fields distinct each ih =>
    obtain ⟨inner, outer, blank, innerSpaces, outerSpaces, blankSpaces, same⟩ :=
      layout.object depth fields
    rw [same]
    exact objectLaid innerSpaces outerSpaces blankSpaces fun field member =>
      ih field member (depth + 1)

theorem IsLayout.ofText (layout : IsLayout text) (storable : Storable maxDepth value)
    {reader : DoubleReader} (restored : value.Restored reader) (depth : Nat) {gap : List Char}
    (spaces : Spaces gap) : ofText? reader (text depth value ++ gap) = some value := by
  have blank : Lays (gap ++ []) [] := Lays.nil.gap spaces
  have stop : Ends (gap ++ []) := spaces.parts [] nofun
  rw [List.append_nil] at blank stop
  have lays := layout.laid storable depth gap [] stop blank
  rw [List.append_nil] at lays
  rw [ofText?, lays.read restored.token, Option.bind_some, storable.assembled]

end

theorem itemsCompact (values : List Json) :
    (tokensOfItems values).flatMap Token.chars =
      values.flatMap fun value => ',' :: value.compact := by
  induction values with
  | nil => rfl
  | cons value rest ih =>
    rw [tokensOfItems, List.flatMap_cons, List.flatMap_append, ih, List.flatMap_cons]
    rfl

theorem arrayCompact (value : Json) (rest : List Json) :
    (Json.array (value :: rest)).compact =
      '[' :: (value.compact ++ (rest.flatMap (fun next => ',' :: next.compact) ++ [']'])) := by
  rw [← itemsCompact, compact, tokens, List.flatMap_cons, List.flatMap_append,
    List.flatMap_append]
  rfl

theorem fieldsCompact (fields : Fields) :
    (tokensOfFields fields).flatMap Token.chars = fieldsText [] [] compact fields := by
  induction fields with
  | nil => rfl
  | cons field rest ih =>
    rw [fieldsTextCons, ← ih]
    simp [tokensOfFields, fieldText, compact, Token.chars]

theorem objectCompact (fields : Fields) :
    (Json.object fields).compact = objectText [] [] [] compact fields := by
  cases fields with
  | nil => rfl
  | cons field rest =>
    rw [objectText, ← fieldsCompact]
    simp [fieldText, compact, tokens, Token.chars]

theorem compactLayout : IsLayout fun _ => compact := by
  constructor
  case plain =>
    intro depth value token same
    rw [compact, same, List.flatMap_singleton]
  case array =>
    intro depth items
    refine ⟨[], [], nofun, nofun, ?_⟩
    cases items with
    | nil => rfl
    | cons item rest => exact arrayCompact item rest
  case object =>
    exact fun depth fields => ⟨[], [], [], nofun, nofun, nofun, objectCompact fields⟩

theorem lineBreakSpaces (depth : Nat) : Spaces (lineBreak depth) := by
  intro c member
  rcases List.mem_cons.mp member with rfl | inside
  · rfl
  · rw [(List.mem_replicate.mp inside).2]
    rfl

theorem itemsPretty (depth : Nat) (items : List Json) :
    prettyItems depth items = itemsText (lineBreak depth) (pretty depth) items := by
  induction items with
  | nil => rfl
  | cons item rest ih =>
    rw [prettyItems, ih, itemsTextCons, List.append_assoc]

theorem fieldsPretty (depth : Nat) (fields : Fields) :
    prettyFields depth fields = fieldsText (lineBreak depth) [' '] (pretty depth) fields := by
  induction fields with
  | nil => rfl
  | cons field rest ih =>
    rw [prettyFields, ih, fieldsTextCons]
    simp [prettyKey, fieldText]

theorem prettyLayout : IsLayout pretty := by
  constructor
  case plain =>
    intro depth value token same
    cases value with
    | array items => cases items <;> simp [tokens] at same
    | object fields => cases fields <;> simp [tokens] at same
    | _ => cases same; rfl
  case array =>
    intro depth items
    refine ⟨lineBreak (depth + 1), lineBreak depth, lineBreakSpaces _, lineBreakSpaces _, ?_⟩
    cases items with
    | nil => rfl
    | cons item rest => simp [pretty, arrayText, itemsPretty]
  case object =>
    intro depth fields
    have blank : Spaces [' '] := by
      intro c member
      cases List.mem_singleton.mp member
      rfl
    refine ⟨lineBreak (depth + 1), lineBreak depth, [' '], lineBreakSpaces _, lineBreakSpaces _,
      blank, ?_⟩
    cases fields with
    | nil => rfl
    | cons field rest => simp [pretty, objectText, fieldText, fieldsPretty, prettyKey]

theorem Storable.ofTextCompact {value : Json} (storable : Storable maxDepth value)
    {reader : DoubleReader} (restored : value.Restored reader) :
    ofText? reader value.compact = some value := by
  have read := compactLayout.ofText storable restored 0 (List.forall_mem_nil _)
  rwa [List.append_nil] at read

theorem Storable.ofTextPretty {value : Json} (storable : Storable maxDepth value)
    {reader : DoubleReader} (restored : value.Restored reader) (depth : Nat) {gap : List Char}
    (spaces : Spaces gap) : ofText? reader (pretty depth value ++ gap) = some value :=
  prettyLayout.ofText storable restored depth spaces

end RecordQuery.Json
