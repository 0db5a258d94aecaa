import RecordQuery.Proofs.Json.Assembly

/-! What a reader can come to. Every number it reads fits, and at every point the values that are
open are within the depth that is left to them, so that each array it returns can be stored. -/
namespace RecordQuery

variable {reader : DoubleReader}

namespace Number

theorem doubleStorable {literal : List Char} {number : Number}
    (found : reader.number? literal = some number) : number.Storable := by
  obtain ⟨x, read, rfl⟩ := Option.map_eq_some_iff.mp found
  exact reader.finite read

theorem integerStorable {negative : Bool} {n : Nat} {value : Int}
    (found : integer? negative n = some value) : (Number.integer value).Storable := by
  unfold integer? at found
  split at found
  · split at found
    · rename_i _ fits
      cases Option.some.inj found
      simp only [Storable]
      omega
    · contradiction
  · split at found
    · rename_i _ fits
      cases Option.some.inj found
      simp only [Storable]
      omega
    · contradiction

theorem readStorable {text : List Char} {number : Number}
    (found : read? reader text = some number) : number.Storable := by
  simp only [read?] at found
  split at found
  · contradiction
  split at found
  · split at found
    · rename_i integer
      cases Option.some.inj found
      exact integerStorable integer
    · exact doubleStorable found
  · split at found
    · contradiction
    · obtain ⟨_, _, found⟩ := Option.bind_eq_some_iff.mp found
      exact doubleStorable found
  · obtain ⟨_, _, found⟩ := Option.bind_eq_some_iff.mp found
    exact doubleStorable found

end Number

namespace Json

theorem Token.ofMarkStorable {c : Char} {token : Token} (found : ofMark? c = some token) :
    token.Storable := by
  unfold ofMark? at found
  iterate 6
    split at found
    · cases Option.some.inj found
      trivial
  contradiction

theorem Token.ofWordStorable {word : List Char} {token : Token}
    (found : ofWord? word = some token) : token.Storable := by
  unfold ofWord? at found
  iterate 3
    split at found
    · cases Option.some.inj found
      trivial
  contradiction

theorem Token.nextStorable {c : Char} {rest after : List Char} {token : Token}
    (found : next? reader c rest = some (token, after)) : token.Storable := by
  unfold next? at found
  split at found
  · rename_i mark
    cases Option.some.inj found
    exact ofMarkStorable mark
  split at found
  · obtain ⟨_, _, same⟩ := Option.map_eq_some_iff.mp found
    cases same
    trivial
  split at found
  · obtain ⟨_, read, same⟩ := Option.map_eq_some_iff.mp found
    cases same
    exact Number.readStorable read
  · obtain ⟨_, read, same⟩ := Option.map_eq_some_iff.mp found
    cases same
    exact ofWordStorable read

theorem tokensStorable {text : List Char} {read : List Token}
    (found : tokens? reader text = some read) : ∀ token ∈ read, token.Storable := by
  fun_induction tokens? reader text generalizing read with
  | case1 =>
    cases Option.some.inj found
    nofun
  | case2 c rest space ih => exact ih found
  | case3 => contradiction
  | case4 c rest space token after next ih =>
    obtain ⟨later, others, rfl⟩ := Option.map_eq_some_iff.mp found
    exact List.forall_mem_cons.mpr ⟨Token.nextStorable next, ih others⟩

end Json

theorem Fields.memInsert {key : String} {value : Json} {fields : Fields} {field : String × Json}
    (member : field ∈ fields.insert key value) : field = (key, value) ∨ field ∈ fields := by
  induction fields with
  | nil => exact .inl (List.mem_singleton.mp member)
  | cons first rest ih =>
    unfold insert at member
    split at member
    · exact (List.mem_cons.mp member).imp_right (List.mem_cons_of_mem first)
    · rcases List.mem_cons.mp member with rfl | later
      · exact .inr List.mem_cons_self
      · exact (ih later).imp_right (List.mem_cons_of_mem first)

theorem Fields.insertDistinct {fields : Fields} (distinct : (fields.map Prod.fst).Nodup)
    (key : String) (value : Json) : ((fields.insert key value).map Prod.fst).Nodup := by
  rw [keysInsert]
  split
  · exact distinct
  · rename_i fresh
    rw [List.nodup_append]
    refine ⟨distinct, List.nodup_cons.mpr ⟨nofun, .nil⟩, ?_⟩
    intro other member last single same
    exact fresh (List.mem_singleton.mp single ▸ same ▸ member)

namespace Json

def Open.Storable (levels : Nat) : Open → Prop
  | .array items => ∀ item ∈ items, Json.Storable levels item
  | .object fields | .field fields _ =>
    (fields.map Prod.fst).Nodup ∧ ∀ field ∈ fields, Json.Storable levels field.2

/-- What is open, innermost first: each value lies within the next. -/
inductive Nested : List Open → Prop where
  | nil : Nested []
  | cons {inner outer} (room : outer.length < maxDepth)
      (storable : inner.Storable (maxDepth - (outer.length + 1))) (others : Nested outer) :
      Nested (inner :: outer)

inductive Sound : Progress → Prop where
  | within {stack expected} (nested : Nested stack) : Sound (.within stack expected)
  | done {value} (storable : Storable maxDepth value) : Sound (.done value)

variable {stack outer : List Open} {after : Progress}

theorem Nested.insert {fields : Fields} {key : String} {value : Json}
    (nested : Nested (.field fields key :: outer))
    (storable : Storable (maxDepth - (outer.length + 1)) value) :
    Nested (.object (fields.insert key value) :: outer) := by
  cases nested with
  | cons room inside others =>
    refine .cons room ⟨Fields.insertDistinct inside.1 key value, ?_⟩ others
    intro field member
    rcases Fields.memInsert member with rfl | old
    · exact storable
    · exact inside.2 field old

theorem completeSound (nested : Nested stack) {value : Json}
    (storable : Storable (maxDepth - stack.length) value)
    (completed : Progress.complete value stack = some after) : Sound after := by
  cases nested with
  | nil =>
    cases Option.some.inj completed
    exact .done storable
  | @cons inner outer room inside others =>
    cases inner with
    | array items =>
      cases Option.some.inj completed
      exact .within (.cons room (List.forall_mem_cons.mpr ⟨storable, inside⟩) others)
    | field fields key =>
      cases Option.some.inj completed
      exact .within ((Nested.cons room inside others).insert storable)
    | object fields => contradiction

theorem emptyArray (levels : Nat) : (Open.array []).Storable levels := nofun

theorem emptyObject (levels : Nat) : (Open.object []).Storable levels :=
  ⟨List.nodup_nil, nofun⟩

theorem descendSound (nested : Nested stack) {inner : Open} {expected : Expected}
    (empty : ∀ levels, inner.Storable levels)
    (descended : Progress.descend inner expected stack = some after) : Sound after := by
  unfold Progress.descend at descended
  split at descended
  · rename_i room
    cases Option.some.inj descended
    exact .within (.cons room (empty _) nested)
  · contradiction

theorem valueSound (nested : Nested stack) {token : Token} (storable : token.Storable)
    (taken : Progress.value stack token = some after) : Sound after := by
  cases token with
  | null => exact completeSound nested .null taken
  | bool value => exact completeSound nested (.bool value) taken
  | number value => exact completeSound nested (.number storable) taken
  | string value => exact completeSound nested (.string value) taken
  | openArray => exact descendSound nested emptyArray taken
  | openObject => exact descendSound nested emptyObject taken
  | _ => contradiction

theorem closeSound (nested : Nested stack) {token : Token}
    (taken : Progress.close token stack = some after) : Sound after := by
  cases nested with
  | nil => cases token <;> contradiction
  | @cons inner outer room inside others =>
    have levels : maxDepth - outer.length = maxDepth - (outer.length + 1) + 1 := by omega
    cases token <;> cases inner <;> try contradiction
    · refine completeSound others ?_ taken
      rw [levels]
      exact .array fun item member => inside item (List.mem_reverse.mp member)
    · refine completeSound others ?_ taken
      rw [levels]
      exact .object inside.1 inside.2

theorem keySound (nested : Nested stack) {token : Token}
    (taken : Progress.key token stack = some after) : Sound after := by
  cases nested with
  | nil => cases token <;> contradiction
  | @cons inner outer room inside others =>
    cases token <;> cases inner <;> try contradiction
    cases Option.some.inj taken
    exact .within (.cons room inside others)

theorem separatorSound (nested : Nested stack) {token : Token}
    (taken : Progress.separator token stack = some after) : Sound after := by
  unfold Progress.separator at taken
  split at taken
  · cases Option.some.inj taken
    exact .within nested
  · cases Option.some.inj taken
    exact .within nested
  · exact closeSound nested taken

theorem stepSound {before : Progress} (sound : Sound before) {token : Token}
    (storable : token.Storable) (taken : before.step token = some after) : Sound after := by
  cases sound with
  | done _ => contradiction
  | @within stack expected nested =>
    cases expected with
    | value => exact valueSound nested storable taken
    | firstItem =>
      by_cases closing : token = .closeArray
      · subst closing
        exact closeSound nested taken
      · rw [Progress.firstItemStep closing] at taken
        exact valueSound nested storable taken
    | firstKey =>
      by_cases closing : token = .closeObject
      · subst closing
        exact closeSound nested taken
      · rw [Progress.firstKeyStep closing] at taken
        exact keySound nested taken
    | key => exact keySound nested taken
    | colon =>
      cases token <;> try contradiction
      cases Option.some.inj taken
      exact .within nested
    | separator => exact separatorSound nested taken

theorem runSound {before : Progress} (sound : Sound before) {read : List Token}
    (storable : ∀ token ∈ read, token.Storable) (taken : Takes before read after) :
    Sound after := by
  induction read generalizing before with
  | nil =>
    cases Option.some.inj taken
    exact sound
  | cons token rest ih =>
    obtain ⟨first, others⟩ := List.forall_mem_cons.mp storable
    rw [Takes, List.foldlM_cons] at taken
    obtain ⟨middle, step, later⟩ := Option.bind_eq_some_iff.mp taken
    exact ih (stepSound sound first step) others later

theorem ofTokensStorable {read : List Token} (storable : ∀ token ∈ read, token.Storable)
    {value : Json} (found : ofTokens? read = some value) : Storable maxDepth value := by
  obtain ⟨after, taken, last⟩ := Option.bind_eq_some_iff.mp found
  have sound := runSound (.within .nil) storable taken
  cases sound with
  | within nested => contradiction
  | done whole =>
    cases Option.some.inj last
    exact whole

theorem readArrayStorable {content : Bytes} {values : List Json}
    (found : readArray? reader content = some values) : Storable maxDepth (.array values) := by
  obtain ⟨json, read, array⟩ := Option.bind_eq_some_iff.mp found
  obtain ⟨text, _, spelled⟩ := Option.bind_eq_some_iff.mp read
  obtain ⟨all, split, assembled⟩ := Option.bind_eq_some_iff.mp spelled
  have storable := ofTokensStorable (tokensStorable split) assembled
  cases json <;> try contradiction
  cases Option.some.inj array
  exact storable

end Json
end RecordQuery
