import Mathlib.Data.List.TakeWhile
import RecordQuery.Text.Blank

/-! Where a text is cut into words, and what trimming leaves alone. A word is followed by a blank
or by nothing; a text that ends in no blank keeps its end. The word and the core of a text are also
described by what stands around them, with no regard to how they are found. -/
namespace RecordQuery.Text

def NoBlank (word : List Char) : Prop := ∀ c ∈ word, isBlank c = false
instance (word) : Decidable (NoBlank word) := List.decidableBAll _ word

def EndsSolid (text : List Char) : Prop := ∃ c, text.getLast? = some c ∧ isBlank c = false

theorem endsSolidNonempty {text : List Char} (ends : EndsSolid text) : text ≠ [] := by
  intro same
  subst same
  obtain ⟨_, last, _⟩ := ends
  contradiction

theorem trimStartWord {word : List Char} (solid : NoBlank word) (rest : List Char)
    (nonempty : word ≠ []) : trimStart (word ++ rest) = word ++ rest := by
  obtain ⟨c, tail, rfl⟩ := List.exists_cons_of_ne_nil nonempty
  exact trimStartOther (solid c List.mem_cons_self)

theorem runAt {p : Char → Bool} {text rest : List Char} (inside : ∀ c ∈ text, p c)
    (stop : ∀ c, rest.head? = some c → p c = false) :
    (text ++ rest).takeWhile p = text ∧ (text ++ rest).dropWhile p = rest := by
  rw [List.takeWhile_append_of_pos inside, List.dropWhile_append_of_pos inside]
  cases rest with
  | nil => simp
  | cons c tail => simp [stop c rfl]

theorem cutWordAt {word rest : List Char} (nonempty : word ≠ []) (solid : NoBlank word)
    (stop : ∀ c, rest.head? = some c → isBlank c) :
    cutWord (word ++ rest) = (word, trimStart rest) := by
  have inside : ∀ c ∈ word, (!isBlank c) = true := by
    intro c member
    rw [solid c member]
    rfl
  have ends : ∀ c, rest.head? = some c → (!isBlank c) = false := by
    intro c head
    rw [stop c head]
    rfl
  obtain ⟨taken, left⟩ := runAt inside ends
  rw [cutWord, trimStartWord solid rest nonempty, taken, left]

theorem trimEndSolid {text : List Char} (ends : EndsSolid text) : trimEnd text = text := by
  obtain ⟨c, last, solid⟩ := ends
  rw [← List.head?_reverse] at last
  obtain ⟨tail, same⟩ := List.head?_eq_some_iff.mp last
  have kept : trimEnd text = text.reverse.reverse := by
    simp [trimEnd, same, solid]
  rw [kept, List.reverse_reverse]

theorem endsSolidTrimEnd {text : List Char} (left : trimEnd text ≠ []) :
    EndsSolid (trimEnd text) := by
  have first := List.head?_dropWhile_not isBlank text.reverse
  cases found : (text.reverse.dropWhile isBlank).head? with
  | none =>
    rw [List.head?_eq_none_iff] at found
    exact absurd (by simp [trimEnd, found]) left
  | some c =>
    rw [found] at first
    exact ⟨c, by rw [trimEnd, List.getLast?_reverse, found], first⟩

theorem endsSolidBack {front back : List Char} (nonempty : back ≠ []) :
    EndsSolid (front ++ back) ↔ EndsSolid back := by
  have last : (front ++ back).getLast? = back.getLast? := by
    rw [List.getLast?_append, List.getLast?_eq_some_getLast nonempty, Option.some_or]
  simp only [EndsSolid, last]

theorem endsSolidBehind {front back : List Char} (c : Char) (nonempty : back ≠ []) :
    EndsSolid (front ++ c :: back) ↔ EndsSolid back := by
  rw [endsSolidBack (List.cons_ne_nil c back), ← List.singleton_append, endsSolidBack nonempty]

def Blanks (text : List Char) : Prop := ∀ c ∈ text, isBlank c
instance (text) : Decidable (Blanks text) := List.decidableBAll _ text

theorem Blanks.append {front back : List Char} (first : Blanks front) (second : Blanks back) :
    Blanks (front ++ back) :=
  List.forall_mem_append.mpr ⟨first, second⟩

theorem Blanks.reverse {text : List Char} (blanks : Blanks text) : Blanks text.reverse :=
  fun c member => blanks c (List.mem_reverse.mp member)

theorem trimStartBlanks {blanks : List Char} (all : Blanks blanks) (rest : List Char) :
    trimStart (blanks ++ rest) = trimStart rest :=
  List.dropWhile_append_of_pos all

theorem trimStartNil {text : List Char} : trimStart text = [] ↔ Blanks text :=
  List.dropWhile_eq_nil_iff

theorem trimStartParts (text : List Char) :
    ∃ blanks, Blanks blanks ∧ text = blanks ++ trimStart text :=
  ⟨text.takeWhile isBlank, List.all_eq_true.mp List.all_takeWhile,
    List.takeWhile_append_dropWhile.symm⟩

theorem trimEndBlanks {blanks : List Char} (all : Blanks blanks) (text : List Char) :
    trimEnd (text ++ blanks) = trimEnd text := by
  rw [trimEnd, List.reverse_append, List.dropWhile_append_of_pos all.reverse, trimEnd]

theorem trimEndParts (text : List Char) :
    ∃ blanks, Blanks blanks ∧ text = trimEnd text ++ blanks := by
  obtain ⟨blanks, all, parts⟩ := trimStartParts text.reverse
  refine ⟨blanks.reverse, all.reverse, ?_⟩
  have whole := congrArg List.reverse parts
  rwa [List.reverse_reverse, List.reverse_append] at whole

theorem headOfTrimStart {text : List Char} {c : Char} (head : (trimStart text).head? = some c) :
    isBlank c = false := by
  have first := List.head?_dropWhile_not isBlank text
  rw [trimStart] at head
  rw [head] at first
  exact first

/-- The first word of a text: blanks stand before it, and a blank or nothing after it. The word is
empty only if the text has none. -/
structure FirstWord (text word after : List Char) : Prop where
  parts : ∃ before, Blanks before ∧ text = before ++ (word ++ after)
  solid : NoBlank word
  stop : ∀ c, after.head? = some c → isBlank c
  alone : word = [] → Blanks after

theorem firstWord (text : List Char) : ∃ word after, FirstWord text word after := by
  obtain ⟨before, blanks, parts⟩ := trimStartParts text
  refine ⟨(trimStart text).takeWhile (!isBlank ·), (trimStart text).dropWhile (!isBlank ·),
    ⟨before, blanks, ?_⟩, ?_, ?_, ?_⟩
  · rwa [List.takeWhile_append_dropWhile]
  · exact wordHasNoBlank text
  · intro c head
    have stopped := List.head?_dropWhile_not (!isBlank ·) (trimStart text)
    rw [head] at stopped
    simpa using stopped
  · intro none
    cases left : trimStart text with
    | nil => exact nofun
    | cons c rest =>
      have solid : isBlank c = false := headOfTrimStart (by rw [left]; rfl)
      simp [left, solid] at none

theorem FirstWord.between {before word gap rest : List Char} (front : Blanks before)
    (solid : NoBlank word) (nonempty : word ≠ []) (blanks : Blanks gap)
    (apart : gap ≠ [] ∨ rest = []) :
    FirstWord (before ++ (word ++ (gap ++ rest))) word (gap ++ rest) := by
  refine ⟨⟨before, front, rfl⟩, solid, ?_, fun none => absurd none nonempty⟩
  intro c head
  cases gap with
  | cons d others =>
    cases Option.some.inj head
    exact blanks c List.mem_cons_self
  | nil =>
    rw [apart.resolve_left fun nonempty => nonempty rfl] at head
    nomatch head

theorem FirstWord.noneIff {text word after : List Char} (first : FirstWord text word after) :
    word = [] ↔ Blanks text := by
  obtain ⟨before, blanks, rfl⟩ := first.parts
  constructor
  · intro none
    rw [none, List.nil_append]
    exact blanks.append (first.alone none)
  · intro all
    refine List.eq_nil_iff_forall_not_mem.mpr fun c member => ?_
    have blank := all c (List.mem_append_right _ (List.mem_append_left _ member))
    rw [first.solid c member] at blank
    contradiction

theorem FirstWord.cut {text word after : List Char} (first : FirstWord text word after) :
    cutWord text = (word, trimStart after) := by
  obtain ⟨before, blanks, rfl⟩ := first.parts
  have skipped : cutWord (before ++ (word ++ after)) = cutWord (word ++ after) := by
    rw [cutWord, trimStartBlanks blanks, cutWord]
  rw [skipped]
  by_cases none : word = []
  · have blank : trimStart after = [] := trimStartNil.mpr (first.alone none)
    rw [none, List.nil_append, cutWord, blank]
    rfl
  · exact cutWordAt none first.solid first.stop

theorem cutWordTrimmed (text : List Char) : cutWord (trimStart text) = cutWord text := by
  obtain ⟨blanks, all, parts⟩ := trimStartParts text
  have again : trimStart (trimStart text) = trimStart text := by
    conv => rhs; rw [parts, trimStartBlanks all]
  rw [cutWord, again, cutWord]

theorem FirstWord.padded {text word after front back : List Char}
    (first : FirstWord text word after) (before : Blanks front) (behind : Blanks back) :
    FirstWord (front ++ (text ++ back)) word (after ++ back) := by
  obtain ⟨blanks, all, rfl⟩ := first.parts
  refine ⟨⟨front ++ blanks, before.append all, by simp⟩, first.solid, ?_, ?_⟩
  · intro c head
    cases after with
    | nil => exact behind c (List.mem_of_mem_head? head)
    | cons d rest => exact first.stop c head
  · intro none
    exact (first.alone none).append behind

structure Core (text core : List Char) : Prop where
  around : ∃ before after, Blanks before ∧ Blanks after ∧ text = before ++ (core ++ after)
  starts : ∀ c, core.head? = some c → isBlank c = false
  ends : EndsSolid core

theorem coreOfTrim {text : List Char} (left : trim text ≠ []) : Core text (trim text) := by
  obtain ⟨before, front, start⟩ := trimStartParts text
  obtain ⟨after, back, ending⟩ := trimEndParts (trimStart text)
  refine ⟨⟨before, after, front, back, ?_⟩, ?_, endsSolidTrimEnd left⟩
  · rw [trim, ← ending, ← start]
  · intro c head
    have first : (trimStart text).head? = some c := by
      rw [ending, ← trim, List.head?_append, head, Option.some_or]
    exact headOfTrimStart first

theorem Core.trimmed {text core : List Char} (between : Core text core) : trim text = core := by
  obtain ⟨before, after, front, back, rfl⟩ := between.around
  obtain ⟨c, rest, same⟩ := List.exists_cons_of_ne_nil (endsSolidNonempty between.ends)
  have solid : isBlank c = false := between.starts c (by rw [same]; rfl)
  have kept : trimStart (core ++ after) = core ++ after := by
    rw [same]
    exact trimStartOther solid
  rw [trim, trimStartBlanks front, kept, trimEndBlanks back, trimEndSolid between.ends]

theorem Core.padded {text core back : List Char} (between : Core text core)
    (behind : Blanks back) : Core (text ++ back) core := by
  obtain ⟨before, after, front, blanks, rfl⟩ := between.around
  exact ⟨⟨before, after ++ back, front, blanks.append behind, by simp⟩, between.starts,
    between.ends⟩

theorem wordCore {word : List Char} (solid : NoBlank word) (nonempty : word ≠ []) :
    Core word word := by
  have last := List.getLast?_eq_some_getLast nonempty
  exact ⟨⟨[], [], nofun, nofun, by simp⟩, fun c head => solid c (List.mem_of_mem_head? head),
    _, last, solid _ (List.mem_of_getLast? last)⟩

theorem trimNil {text : List Char} : trim text = [] ↔ Blanks text := by
  constructor
  · intro none
    obtain ⟨after, back, ending⟩ := trimEndParts (trimStart text)
    obtain ⟨before, front, start⟩ := trimStartParts text
    rw [← trim, none] at ending
    rw [start, ending]
    exact front.append back
  · intro blanks
    rw [trim, trimStartNil.mpr blanks]
    rfl

end RecordQuery.Text
