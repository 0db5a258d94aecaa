import RecordQuery.Proofs.Query.Agreement

/-! The law that ties the three operators together. Two texts always have an order, and they are
equal if they are the same or read as one number, so that only two texts can be equal and in order
at once. Any other two sides are compared as numbers: one operator holds if both are numbers, and
none if one of them is not. -/
namespace RecordQuery

namespace Operand

inductive Reads : Operand → Binary64 → Prop where
  | number {x} (ordered : x.isNaN = false) : Reads (.number x) x
  | text {s x} (reads : Strictness.ReadsAs s.toList x) : Reads (.text s) x

def Unread (side : Operand) : Prop := ∀ x, ¬ side.Reads x

def Mixed (left right : Operand) : Prop := ∀ s t, left = .text s → right ≠ .text t

inductive OfField : Option Json → Operand → Prop where
  | integer (n : Int) : OfField (some (.number (.integer n))) (.number (.ofInt n))
  | double (x : Binary64) : OfField (some (.number (.double x))) (.number x)
  | bool (b : Bool) : OfField (some (.bool b)) (.number (.ofInt (if b then 1 else 0)))
  | string (s : String) : OfField (some (.string s)) (.text s)

inductive Incomparable : Option Json → Prop where
  | missing : Incomparable none
  | null : Incomparable (some .null)
  | array (items : List Json) : Incomparable (some (.array items))
  | object (fields : Fields) : Incomparable (some (.object fields))

variable {side left right : Operand} {x : Binary64} {field : Option Json}

theorem finiteOrdered (finite : x.isFinite) : x.isNaN = false := by
  simp only [Binary64.isFinite, Binary64.isNaN, decide_eq_true_eq, decide_eq_false_iff_not]
    at finite ⊢
  omega

theorem Reads.ordered (reads : side.Reads x) : x.isNaN = false := by
  cases reads with
  | number ordered => exact ordered
  | text reads => exact finiteOrdered reads.2

theorem textReads {s : String} (known : (text s).number? = some x) : (text s).Reads x :=
  .text (Strictness.finiteLiteralIff.mp known)

theorem readsIff : side.Reads x ↔ side.number? = some x ∧ x.isNaN = false := by
  constructor
  · intro reads
    refine ⟨?_, reads.ordered⟩
    cases reads with
    | number ordered => rfl
    | text reads => exact Strictness.finiteLiteralIff.mpr reads
  · intro source
    obtain ⟨known, ordered⟩ := source
    cases side with
    | number z =>
      cases known
      exact .number ordered
    | text s => exact textReads known

theorem Reads.one {y : Binary64} (first : side.Reads x) (second : side.Reads y) : x = y :=
  Option.some.inj ((readsIff.mp first).1.symm.trans (readsIff.mp second).1)

theorem ofFieldIff : OfField field side ↔ field.bind ofJson? = some side := by
  constructor
  · intro given
    cases given <;> rfl
  · intro found
    obtain ⟨json, rfl, found⟩ := Option.bind_eq_some_iff.mp found
    cases json with
    | bool b =>
      cases found
      exact .bool b
    | number n =>
      cases n with
      | integer n =>
        cases found
        exact .integer n
      | double x =>
        cases found
        exact .double x
    | string s =>
      cases found
      exact .string s
    | null | array items | object fields => contradiction

theorem incomparableIff : Incomparable field ↔ field.bind ofJson? = none := by
  constructor
  · intro source
    cases source <;> rfl
  · intro none
    cases field with
    | none => exact .missing
    | some json =>
      cases json with
      | null => exact .null
      | array items => exact .array items
      | object fields => exact .object fields
      | number n => cases n <;> contradiction
      | bool b | string s => contradiction

theorem mixedOrTexts (left right : Operand) :
    Mixed left right ∨ ∃ s t, left = .text s ∧ right = .text t := by
  by_cases texts : ∃ s t, left = .text s ∧ right = .text t
  · exact .inr texts
  · exact .inl fun s t first second => texts ⟨s, t, first, second⟩

def compared? (left right : Operand) : Option Ordering :=
  left.number?.bind fun x => right.number?.bind fun y => x.compare? y

theorem orderMixed (mixed : Mixed left right) : left.order? right = left.compared? right := by
  unfold order? compared?
  split
  · exact absurd rfl (mixed _ _ rfl)
  · cases left.number? <;> cases right.number? <;> rfl

theorem equalsMixed (mixed : Mixed left right) :
    left.equals right = (left.compared? right == some .eq) := by
  unfold equals compared?
  split
  · rename_i first second
    rw [first, second]
    rfl
  · rename_i notBoth
    split
    · exact absurd rfl (mixed _ _ rfl)
    cases first : left.number? with
    | none => rfl
    | some x =>
      cases second : right.number? with
      | none => rfl
      | some y => exact (notBoth x y first second).elim

end Operand

namespace Operator

open Operand (Reads Unread Mixed OfField Incomparable)

def ordering : Operator → Ordering
  | equal => .eq
  | greater => .gt
  | less => .lt

def Orders : Operator → Int → Int → Prop
  | equal, a, b => a = b
  | greater, a, b => b < a
  | less, a, b => a < b

def OrdersNumbers (operator : Operator) (left right : Operand) : Prop :=
  ∃ x y, left.Reads x ∧ right.Reads y ∧ operator.Orders x.place y.place

inductive Overlaps : Option Json → Operand → Prop where
  | texts {s t x y} (different : s ≠ t) (left : Strictness.ReadsAs s.toList x)
      (right : Strictness.ReadsAs t.toList y) (same : x.place = y.place) :
      Overlaps (some (.string s)) (.text t)

inductive Excluded : Option Json → Operand → Prop where
  | field {field value} (incomparable : Incomparable field) : Excluded field value
  | number {field left value} (given : OfField field left) (mixed : Mixed left value)
      (unread : left.Unread ∨ value.Unread) : Excluded field value

section

variable {operator : Operator} {left right : Operand} {x y : Binary64} {s t : String}

theorem ordersOne (a b : Int) :
    ∃ operator : Operator, ∀ other : Operator, other.Orders a b ↔ other = operator := by
  rcases Int.lt_trichotomy a b with below | same | above
  · refine ⟨less, fun other => ?_⟩
    cases other <;> simp only [Orders, reduceCtorEq, iff_false, iff_true] <;> omega
  · refine ⟨equal, fun other => ?_⟩
    cases other <;> simp only [Orders, reduceCtorEq, iff_false, iff_true] <;> omega
  · refine ⟨greater, fun other => ?_⟩
    cases other <;> simp only [Orders, reduceCtorEq, iff_false, iff_true] <;> omega

theorem ordersNumbersOf (first : left.Reads x) (second : right.Reads y) :
    operator.OrdersNumbers left right ↔ operator.Orders x.place y.place := by
  constructor
  · intro source
    obtain ⟨_, _, firstToo, secondToo, placed⟩ := source
    rwa [firstToo.one first, secondToo.one second] at placed
  · intro placed
    exact ⟨x, y, first, second, placed⟩

theorem unorderedOf (unread : left.Unread ∨ right.Unread) :
    ¬ operator.OrdersNumbers left right := by
  rintro ⟨x, y, first, second, _⟩
  exact unread.elim (fun none => none x first) (fun none => none y second)

theorem compareIff : x.compare? y = some operator.ordering ↔
    x.isNaN = false ∧ y.isNaN = false ∧ operator.Orders x.place y.place := by
  unfold Binary64.compare?
  split
  · rename_i unordered
    simp only [Bool.or_eq_true] at unordered
    grind
  · rename_i ordered
    simp only [Bool.or_eq_true, not_or, Bool.not_eq_true] at ordered
    cases operator <;> simp only [ordering, Orders] <;> grind

theorem ordersNumbersIff :
    operator.OrdersNumbers left right ↔ left.compared? right = some operator.ordering := by
  simp only [OrdersNumbers, Operand.readsIff, Operand.compared?, Option.bind_eq_some_iff,
    compareIff]
  constructor
  · intro source
    obtain ⟨x, y, ⟨first, ordered⟩, ⟨second, orderedToo⟩, placed⟩ := source
    exact ⟨x, first, y, second, ordered, orderedToo, placed⟩
  · intro source
    obtain ⟨x, first, y, second, ordered, orderedToo, placed⟩ := source
    exact ⟨x, y, ⟨first, ordered⟩, ⟨second, orderedToo⟩, placed⟩

theorem relatesMixed (mixed : Mixed left right) :
    operator.relates left right ↔ operator.OrdersNumbers left right := by
  rw [ordersNumbersIff]
  cases operator with
  | equal => simp only [relates, Operand.equalsMixed mixed, ordering, beq_iff_eq]
  | greater => simp only [relates, Operand.orderMixed mixed, ordering, beq_iff_eq]
  | less => simp only [relates, Operand.orderMixed mixed, ordering, beq_iff_eq]

theorem equalTexts :
    equal.relates (.text s) (.text t) ↔ s = t ∨ equal.OrdersNumbers (.text s) (.text t) := by
  rw [ordersNumbersIff, Operand.compared?, relates]
  cases first : (Operand.text s).number? with
  | none => simp [Operand.equals, first]
  | some x =>
    cases second : (Operand.text t).number? with
    | none => simp [Operand.equals, first, second]
    | some y =>
      have itself : s = t → x.compare? y = some .eq := by
        rintro rfl
        cases first.symm.trans second
        have ordered := (Operand.textReads first).ordered
        have same : equal.Orders x.place x.place := rfl
        exact compareIff.mpr ⟨ordered, ordered, same⟩
      simpa [Operand.equals, first, second, ordering] using itself

theorem orderingOne (o : Ordering) :
    ∃ operator : Operator, ∀ other : Operator, o = other.ordering ↔ other = operator := by
  cases o with
  | lt => exact ⟨less, fun other => by cases other <;> simp [ordering]⟩
  | eq => exact ⟨equal, fun other => by cases other <;> simp [ordering]⟩
  | gt => exact ⟨greater, fun other => by cases other <;> simp [ordering]⟩

theorem relatesTexts : operator.relates (.text s) (.text t) ↔
    Text.order s.toList t.toList = operator.ordering ∨
      operator = equal ∧ equal.OrdersNumbers (.text s) (.text t) := by
  cases operator with
  | equal => simp [equalTexts, ordering, Text.orderEqIff, String.toList_inj]
  | greater | less => simp [relates, Operand.order?, ordering]

end

inductive Judged (field : Option Json) (value : Operand) : Prop where
  | single (operator : Operator)
      (only : ∀ other : Operator, other.holds field value ↔ other = operator)
      (apart : ¬ Overlaps field value) (included : ¬ Excluded field value)
  | both (operator : Operator) (order : operator ≠ equal)
      (only : ∀ other : Operator, other.holds field value ↔ other = operator ∨ other = equal)
      (overlaps : Overlaps field value) (included : ¬ Excluded field value)
  | nothing (none : ∀ other : Operator, ¬ other.holds field value)
      (apart : ¬ Overlaps field value) (excluded : Excluded field value)

variable {field : Option Json} {left value : Operand}

theorem holdsGiven {operator : Operator} (given : OfField field left) :
    operator.holds field value ↔ operator.relates left value := by
  rw [holds, Operand.ofFieldIff.mp given]

theorem overlapsIff {s t : String} : Overlaps (some (.string s)) (.text t) ↔
    s ≠ t ∧ equal.OrdersNumbers (.text s) (.text t) := by
  constructor
  · intro overlaps
    cases overlaps with
    | texts different first second same =>
      exact ⟨different, _, _, .text first, .text second, same⟩
  · intro source
    obtain ⟨different, x, y, first, second, same⟩ := source
    cases first with
    | text first =>
      cases second with
      | text second => exact .texts different first second same

theorem judgedTexts (s t : String) : Judged (some (.string s)) (.text t) := by
  have included : ¬ Excluded (some (.string s)) (.text t) := by
    intro excluded
    cases excluded with
    | field incomparable => nomatch incomparable
    | number given mixed unread =>
      cases given
      exact mixed s t rfl rfl
  obtain ⟨operator, one⟩ := orderingOne (Text.order s.toList t.toList)
  have only (other : Operator) : other.holds (some (.string s)) (.text t) ↔
      other = operator ∨ other = equal ∧ equal.OrdersNumbers (.text s) (.text t) := by
    rw [holdsGiven (.string s), relatesTexts, one]
  have itself : equal = operator ↔ s = t := by
    rw [← one, ordering, Text.orderEqIff, String.toList_inj]
  by_cases overlaps : Overlaps (some (.string s)) (.text t)
  · obtain ⟨different, same⟩ := overlapsIff.mp overlaps
    have order : operator ≠ equal := fun equals => different (itself.mp equals.symm)
    refine .both operator order (fun other => ?_) overlaps included
    rw [only, and_iff_left same]
  · refine .single operator (fun other => ?_) overlaps included
    rw [only, or_iff_left_iff_imp]
    rintro ⟨rfl, same⟩
    by_contra other
    exact overlaps (overlapsIff.mpr ⟨fun equals => other (itself.mpr equals), same⟩)

theorem excludedMixed (given : OfField field left) (mixed : Mixed left value) :
    Excluded field value ↔ left.Unread ∨ value.Unread := by
  constructor
  · intro excluded
    cases excluded with
    | field incomparable => cases incomparable <;> contradiction
    | number givenToo _ unread =>
      cases Option.some.inj ((Operand.ofFieldIff.mp givenToo).symm.trans
        (Operand.ofFieldIff.mp given))
      exact unread
  · exact .number given mixed

theorem judgedMixed (given : OfField field left) (mixed : Mixed left value) :
    Judged field value := by
  have apart : ¬ Overlaps field value := by
    intro overlaps
    cases overlaps
    cases given
    exact mixed _ _ rfl rfl
  have excluded := excludedMixed given mixed
  have only (other : Operator) : other.holds field value ↔ other.OrdersNumbers left value :=
    (holdsGiven given).trans (relatesMixed mixed)
  by_cases unread : left.Unread ∨ value.Unread
  · exact .nothing (fun other held => unorderedOf unread ((only other).mp held)) apart
      (excluded.mpr unread)
  · have included : ¬ Excluded field value := fun out => unread (excluded.mp out)
    simp only [Unread, not_or, not_forall, not_not] at unread
    obtain ⟨⟨x, first⟩, y, second⟩ := unread
    obtain ⟨operator, one⟩ := ordersOne x.place y.place
    refine .single operator (fun other => ?_) apart included
    rw [only, ordersNumbersOf first second, one]

theorem judged (field : Option Json) (value : Operand) : Judged field value := by
  cases side : field.bind Operand.ofJson? with
  | none =>
    have incomparable := Operand.incomparableIff.mpr side
    refine .nothing (fun other held => ?_) ?_ (.field incomparable)
    · rw [holds, side] at held
      contradiction
    · rintro ⟨⟩
      contradiction
  | some left =>
    have given := Operand.ofFieldIff.mpr side
    rcases Operand.mixedOrTexts left value with mixed | ⟨s, t, rfl, rfl⟩
    · exact judgedMixed given mixed
    · cases given
      exact judgedTexts s t

theorem Judged.apart (judged : Judged field value) :
    ¬ (less.holds field value ∧ greater.holds field value) := by
  intro held
  cases judged with
  | single operator only apart included =>
    cases (((only less).mp held.1).trans ((only greater).mp held.2).symm)
  | both operator order only overlaps included =>
    have below := ((only less).mp held.1).resolve_right nofun
    have above := ((only greater).mp held.2).resolve_right nofun
    cases below.trans above.symm
  | nothing none apart excluded => exact none less held.1

theorem Judged.overlap (judged : Judged field value) :
    equal.holds field value ∧ (less.holds field value ∨ greater.holds field value) ↔
      Overlaps field value := by
  cases judged with
  | single operator only apart included =>
    simp only [only, apart, iff_false]
    rintro ⟨rfl, other | other⟩ <;> contradiction
  | both operator order only overlaps included =>
    simp only [only, overlaps, iff_true]
    cases operator with
    | equal => contradiction
    | greater | less => simp
  | nothing none apart excluded => exact iff_of_false (fun source => none equal source.1) apart

theorem Judged.nothingIff (judged : Judged field value) :
    (∀ operator : Operator, ¬ operator.holds field value) ↔ Excluded field value := by
  cases judged with
  | single operator only apart included =>
    exact iff_of_false (fun none => none operator ((only operator).mpr rfl)) included
  | both operator order only overlaps included =>
    exact iff_of_false (fun none => none equal ((only equal).mpr (.inr rfl))) included
  | nothing none apart excluded => exact iff_of_true none excluded

theorem Judged.singleIff (judged : Judged field value) :
    (∃ operator : Operator, ∀ other : Operator, other.holds field value ↔ other = operator) ↔
      ¬ Overlaps field value ∧ ¬ Excluded field value := by
  cases judged with
  | single operator only apart included => exact iff_of_true ⟨operator, only⟩ ⟨apart, included⟩
  | both operator order only overlaps included =>
    refine iff_of_false ?_ fun neither => neither.1 overlaps
    rintro ⟨one, alone⟩
    have first := (alone operator).mp ((only operator).mpr (.inl rfl))
    have second := (alone equal).mp ((only equal).mpr (.inr rfl))
    exact order (first.trans second.symm)
  | nothing none apart excluded =>
    refine iff_of_false ?_ fun neither => neither.2 excluded
    rintro ⟨one, alone⟩
    exact none one ((alone one).mpr rfl)

theorem textsHeld (s t : String) :
    ∃ operator : Operator, operator.holds (some (.string s)) (.text t) := by
  obtain ⟨operator, one⟩ := orderingOne (Text.order s.toList t.toList)
  refine ⟨operator, ?_⟩
  rw [holdsGiven (.string s), relatesTexts]
  exact .inl ((one operator).mpr rfl)

/-- What the operators say of a field and a value: less and greater exclude each other; equal goes
with one of them for different texts of one number only; nothing holds only where there is nothing
to compare; and otherwise one operator holds alone. -/
structure Trichotomy (field : Option Json) (value : Operand) : Prop where
  apart : ¬ (less.holds field value ∧ greater.holds field value)
  overlap : equal.holds field value ∧ (less.holds field value ∨ greater.holds field value) ↔
    Overlaps field value
  nothing : (∀ operator : Operator, ¬ operator.holds field value) ↔ Excluded field value
  single : (∃ operator : Operator, ∀ other : Operator,
      other.holds field value ↔ other = operator) ↔
    ¬ Overlaps field value ∧ ¬ Excluded field value
  texts : ∀ s t, field = some (.string s) → value = .text t →
    ∃ operator : Operator, operator.holds field value

theorem trichotomy (field : Option Json) (value : Operand) : Trichotomy field value := by
  have judged := judged field value
  refine ⟨judged.apart, judged.overlap, judged.nothingIff, judged.singleIff, ?_⟩
  rintro s t rfl rfl
  exact textsHeld s t

example : equal.holds (some (.string "10")) (.text "10.0") = true ∧
    less.holds (some (.string "10")) (.text "10.0") = true := by
  decide +kernel

end Operator
end RecordQuery
