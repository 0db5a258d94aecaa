import RecordQuery.Proofs.Text.Words
import RecordQuery.Storage.Path

/-! File names of paths. A path with a file name is a text before it, which ends in a slash or is
empty, the name, and slashes and single dots; its temporary path keeps the text before the name
and lengthens the name. The last step of a path without a file name stays or goes up. -/
namespace RecordQuery.Path

def Leads (leading : List Char) : Prop := leading = [] ∨ ∃ front, leading = front ++ ['/']

structure PlainName (name : List Char) : Prop where
  noSlash : '/' ∉ name
  nonempty : name ≠ []
  notSelf : name ≠ ['.']
  notParent : name ≠ ['.', '.']

def temporaryName (name : List Char) : List Char := name ++ ".tmp".toList

theorem namesSlash (front back : List Char) :
    names (front ++ '/' :: back) = names front ++ names back := by
  simp [names, List.splitOn_append_cons_self]

theorem namesName {name : List Char} (noSlash : '/' ∉ name) (nonempty : name ≠ []) :
    names name = [name] := by
  simp [names, List.splitOn_eq_singleton noSlash, nonempty]

theorem namesLeading {leading name : List Char} (leads : Leads leading) (noSlash : '/' ∉ name)
    (nonempty : name ≠ []) : names (leading ++ name) = names leading ++ [name] := by
  rcases leads with rfl | ⟨front, rfl⟩
  · exact namesName noSlash nonempty
  · have none : names [] = [] := rfl
    rw [List.append_assoc, List.singleton_append, namesSlash, namesSlash,
      namesName noSlash nonempty, none, List.append_nil]

inductive Trailing : List Char → Prop where
  | nil : Trailing []
  | slash {before} (earlier : Trailing before) : Trailing (before ++ ['/'])
  | dot {before} (earlier : Trailing before) : Trailing (before ++ ['/', '.'])

/-- A path with a file name: what stands before the name, the name, and nothing of note after it. -/
structure Named (path leading name : List Char) : Prop where
  leads : Leads leading
  plain : PlainName name
  text : ∃ trailing, Trailing trailing ∧ path = leading ++ name ++ trailing

theorem dropEndSource (text : List Char) :
    ∃ trailing, Trailing trailing ∧ text = trailing.reverse ++ dropEnd text := by
  fun_induction dropEnd text with
  | case1 rest ih =>
    obtain ⟨trailing, shape, same⟩ := ih
    exact ⟨_, shape.slash, by simpa using same⟩
  | case2 rest ih =>
    obtain ⟨trailing, shape, same⟩ := ih
    exact ⟨_, shape.dot, by simpa using same⟩
  | case3 rest => exact ⟨[], .nil, rfl⟩

theorem Trailing.dropped {trailing : List Char} (shape : Trailing trailing) (text : List Char) :
    dropEnd (trailing.reverse ++ text) = dropEnd text := by
  induction shape with
  | nil => rfl
  | slash earlier ih => simpa [dropEnd] using ih
  | dot earlier ih => simpa [dropEnd] using ih

theorem dropEndHead (text : List Char) : (dropEnd text).head? ≠ some '/' := by
  fun_induction dropEnd text with
  | case1 rest ih => exact ih
  | case2 rest ih => exact ih
  | case3 rest noSlash noDot =>
    intro slash
    obtain ⟨tail, same⟩ := List.head?_eq_some_iff.mp slash
    exact noSlash tail same

theorem namesDropEnd (text : List Char) :
    ∃ count, names text.reverse =
      names (dropEnd text).reverse ++ List.replicate count ['.'] := by
  fun_induction dropEnd text with
  | case1 rest ih =>
    obtain ⟨count, same⟩ := ih
    refine ⟨count, ?_⟩
    have none : names [] = [] := rfl
    rw [List.reverse_cons, namesSlash, none, List.append_nil, same]
  | case2 rest ih =>
    obtain ⟨count, same⟩ := ih
    refine ⟨count + 1, ?_⟩
    have dot : names ['.'] = [['.']] := namesName (by decide) (by decide)
    rw [List.reverse_cons, List.reverse_cons, List.append_assoc, List.singleton_append,
      namesSlash, dot, same, List.append_assoc, ← List.replicate_succ']
  | case3 rest => exact ⟨0, (List.append_nil _).symm⟩

theorem partsFromEnd (kept : List Char) :
    Leads (kept.dropWhile (· ≠ '/')).reverse ∧ '/' ∉ (kept.takeWhile (· ≠ '/')).reverse ∧
      kept.reverse =
        (kept.dropWhile (· ≠ '/')).reverse ++ (kept.takeWhile (· ≠ '/')).reverse := by
  refine ⟨?_, ?_, ?_⟩
  · have first := List.head?_dropWhile_not (· ≠ '/') kept
    cases rest : kept.dropWhile (· ≠ '/') with
    | nil => exact .inl rfl
    | cons c tail =>
      rw [rest] at first
      have slash : c = '/' := by simpa using first
      exact .inr ⟨tail.reverse, by rw [List.reverse_cons, slash]⟩
  · intro member
    have apart := List.all_eq_true.mp List.all_takeWhile '/' (List.mem_reverse.mp member)
    simp at apart
  · rw [← List.reverse_append, List.takeWhile_append_dropWhile]

structure SplitSource (path leading name : List Char) : Prop extends Named path leading name where
  names : ∃ count, Path.names path = Path.names leading ++ name :: List.replicate count ['.']

theorem splitSource {path leading name : List Char} (split : split? path = some (leading, name)) :
    SplitSource path leading name := by
  unfold split? at split
  dsimp only at split
  split at split <;> try contradiction
  rename_i plain
  cases split
  obtain ⟨leads, noSlash, joined⟩ := partsFromEnd (dropEnd path.reverse)
  simp only [not_or] at plain
  obtain ⟨trailing, shape, whole⟩ := dropEndSource path.reverse
  obtain ⟨count, steps⟩ := namesDropEnd path.reverse
  refine ⟨⟨leads, ⟨noSlash, plain.1, plain.2.1, plain.2.2⟩, trailing, shape, ?_⟩, count, ?_⟩
  · have parts := congrArg List.reverse whole
    rwa [List.reverse_reverse, List.reverse_append, List.reverse_reverse, joined] at parts
  · rw [List.reverse_reverse, joined, namesLeading leads noSlash plain.1, List.append_assoc,
      List.singleton_append] at steps
    exact steps

theorem dropEndName {name : List Char} (plain : PlainName name) (before : List Char) :
    dropEnd (name.reverse ++ before) = name.reverse ++ before := by
  obtain ⟨c, others, same⟩ := List.exists_cons_of_ne_nil (List.reverse_ne_nil_iff.mpr plain.nonempty)
  have noSlash : '/' ∉ c :: others := same ▸ mt List.mem_reverse.mp plain.noSlash
  rw [List.mem_cons, not_or] at noSlash
  rw [same, List.cons_append]
  unfold dropEnd
  split
  · rename_i slash
    exact absurd (List.cons.inj slash).1.symm noSlash.1
  · rename_i rest dot
    obtain ⟨rfl, tail⟩ := List.cons.inj dot
    cases others with
    | nil => exact absurd (List.reverse_eq_iff.mp same) plain.notSelf
    | cons d others =>
      obtain ⟨rfl, _⟩ := List.cons.inj tail
      exact absurd List.mem_cons_self noSlash.2
  · rfl

theorem Named.split {path leading name : List Char} (named : Named path leading name) :
    split? path = some (leading, name) := by
  obtain ⟨leads, plain, trailing, shape, rfl⟩ := named
  have kept : dropEnd (leading ++ name ++ trailing).reverse = name.reverse ++ leading.reverse := by
    rw [List.reverse_append, shape.dropped, List.reverse_append, dropEndName plain]
  have inside : ∀ c ∈ name.reverse, decide (c ≠ '/') := by
    intro c member
    refine decide_eq_true fun slash => plain.noSlash ?_
    exact slash ▸ List.mem_reverse.mp member
  have stop : ∀ c, leading.reverse.head? = some c → decide (c ≠ '/') = false := by
    intro c head
    rcases leads with rfl | ⟨front, rfl⟩
    · contradiction
    · simpa using head.symm
  obtain ⟨taken, dropped⟩ := Text.runAt inside stop
  unfold split?
  simp only [kept, taken, dropped, List.reverse_reverse]
  rw [if_neg]
  simp [plain.nonempty, plain.notSelf, plain.notParent]

theorem splitIff {path leading name : List Char} :
    split? path = some (leading, name) ↔ Named path leading name :=
  ⟨fun split => (splitSource split).toNamed, Named.split⟩

theorem lastOfNoFileName {path : List Char} (none : split? path = none) {last : List Char}
    (found : (names path).getLast? = some last) : last = ['.'] ∨ last = ['.', '.'] := by
  unfold split? at none
  dsimp only at none
  split at none <;> try contradiction
  rename_i special
  obtain ⟨count, steps⟩ := namesDropEnd path.reverse
  rw [List.reverse_reverse] at steps
  rw [steps] at found
  cases count with
  | succ more =>
    rw [List.replicate_succ', ← List.append_assoc, List.getLast?_concat] at found
    exact .inl (Option.some.inj found).symm
  | zero =>
    rw [List.replicate_zero, List.append_nil] at found
    obtain ⟨leads, noSlash, joined⟩ := partsFromEnd (dropEnd path.reverse)
    rcases special with empty | special
    · have nothing : dropEnd path.reverse = [] := by
        cases kept : dropEnd path.reverse with
        | nil => rfl
        | cons c tail =>
          have apart : c ≠ '/' := by
            intro same
            subst same
            exact dropEndHead path.reverse (by rw [kept]; rfl)
          simp [kept, apart] at empty
      rw [nothing] at found
      contradiction
    · have nonempty : ((dropEnd path.reverse).takeWhile (· ≠ '/')).reverse ≠ [] := by
        rcases special with same | same <;> rw [same] <;> decide
      rw [joined, namesLeading leads noSlash nonempty, List.getLast?_concat] at found
      cases found
      exact special

theorem splitExtensionSource {name stem : List Char} {extension : Option (List Char)}
    (split : splitExtension name = (stem, extension)) :
    name = stem ++ (extension.map ('.' :: ·)).getD [] := by
  unfold splitExtension at split
  split at split
  · rename_i dot c rest behind
    cases split
    have first := List.head?_dropWhile_not (· ≠ '.') name.reverse
    rw [behind] at first
    have same : dot = '.' := by simpa using first
    subst same
    have whole : name.reverse.takeWhile (· ≠ '.') ++ '.' :: c :: rest = name.reverse := by
      rw [← behind, List.takeWhile_append_dropWhile]
    calc name
      _ = (name.reverse.takeWhile (· ≠ '.') ++ '.' :: c :: rest).reverse := by
        rw [whole, List.reverse_reverse]
      _ = (c :: rest).reverse ++ '.' :: (name.reverse.takeWhile (· ≠ '.')).reverse := by
        rw [List.reverse_append, List.reverse_cons, List.append_assoc, List.singleton_append]
  · cases split
    simp

theorem temporaryOfSplit {path leading name : List Char}
    (split : split? path = some (leading, name)) :
    temporary path = leading ++ temporaryName name := by
  cases extended : splitExtension name with
  | mk stem extension =>
    have whole := splitExtensionSource extended
    cases extension with
    | none => simp_all [temporary, withExtension, temporaryName]
    | some extension => simp_all [temporary, withExtension, temporaryName]

theorem temporaryPlain {name : List Char} (plain : PlainName name) :
    PlainName (temporaryName name) := by
  have long : 4 ≤ (temporaryName name).length := by simp [temporaryName]
  refine ⟨?_, ?_, ?_, ?_⟩
  · intro member
    rcases List.mem_append.mp member with inside | inside
    · exact plain.noSlash inside
    · exact absurd inside (by decide)
  · intro empty
    simp [empty] at long
  · intro self
    simp [self] at long
  · intro parent
    simp [parent] at long

theorem temporaryNameOther (name : List Char) : temporaryName name ≠ name := by
  intro same
  have lengths := congrArg List.length same
  simp [temporaryName] at lengths

end RecordQuery.Path
