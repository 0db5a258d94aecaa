import RecordQuery.Proofs.Decimal.Literal
import RecordQuery.Proofs.Json.Layout
import RecordQuery.Proofs.Record
import RecordQuery.Report.Basic

/-! Print-outs read back. The lines of a record may have line feeds of their own, so that a report
is read from both of its ends: the lines around the records have none. JSON is read as the array
that it is, with the line feed after it. -/
namespace RecordQuery

namespace Style

variable {style : Style} {shows : Bool} {text : List Char}

def opening (style : Style) (shows : Bool) : List Char := if shows then style.start else []

def closing (shows : Bool) : List Char := if shows then reset else []

theorem resumePlain (plain : '\x1b' ∉ text) : style.resume text = text := by
  fun_induction resume style text with
  | case1 => rfl
  | case2 rest ih => exact absurd List.mem_cons_self plain
  | case3 c rest other ih => rw [ih fun inside => plain (List.mem_cons_of_mem c inside)]

theorem applyPlain (plain : '\x1b' ∉ text) :
    style.apply shows text = style.opening shows ++ text ++ closing shows := by
  cases shows with
  | false => exact (List.append_nil _).symm
  | true => simp only [apply, opening, closing, resumePlain plain, if_true]

theorem openingApart (style : Style) (shows : Bool) :
    '\n' ∉ style.opening shows ∧ ' ' ∉ style.opening shows := by
  cases style <;> cases shows <;> decide

theorem closingApart (shows : Bool) : '\n' ∉ closing shows := by
  cases shows <;> decide

theorem applyLine (plain : '\x1b' ∉ text) (line : '\n' ∉ text) :
    '\n' ∉ style.apply shows text := by
  rw [applyPlain plain, List.mem_append, List.mem_append]
  rintro ((front | inside) | back)
  · exact (openingApart style shows).1 front
  · exact line inside
  · exact closingApart shows back

end Style

namespace Report

def firstLine (text : List Char) : List Char := text.takeWhile (· != '\n')

def afterLine (text : List Char) : List Char := (text.dropWhile (· != '\n')).drop 1

def recordPart (text : List Char) : List Char :=
  let fromRecords := afterLine (afterLine text)
  let backward := afterLine (afterLine (afterLine fromRecords.reverse))
  (backward.dropWhile (· != '\n')).reverse

def totalLine (text : List Char) : List Char :=
  (firstLine (afterLine (afterLine text.reverse))).reverse

def totalShown (text : List Char) : Nat :=
  let number := ((totalLine text).dropWhile (· != ' ')).drop 1
  Decimal.value (number.takeWhile Char.isDigit)

structure Shows (template : String) (records : List Record) (text : List Char) : Prop where
  total : totalShown text = records.length
  records : recordPart text =
    records.flatMap fun record => Template.line template record ++ ['\n']

theorem stopsBefore {mark : Char} {text rest : List Char} (apart : mark ∉ text) :
    (text ++ mark :: rest).takeWhile (· != mark) = text ∧
      (text ++ mark :: rest).dropWhile (· != mark) = mark :: rest := by
  refine Text.runAt (fun c inside => ?_) fun d head => ?_
  · simp only [bne_iff_ne]
    rintro rfl
    exact apart inside
  · rw [← Option.some.inj head]
    exact bne_self_eq_false mark

theorem firstLineAt {line rest : List Char} (one : '\n' ∉ line) :
    firstLine (line ++ '\n' :: rest) = line :=
  (stopsBefore one).1

theorem afterLineAt {line rest : List Char} (one : '\n' ∉ line) :
    afterLine (line ++ '\n' :: rest) = rest := by
  rw [afterLine, (stopsBefore one).2]
  rfl

theorem totalWords (count : Nat) : total count = "Total:".toList ++ ' ' :: Decimal.digits count :=
  rfl

theorem totalApart {c : Char} (other : c.isDigit = false) (apart : c ∉ "Total: ".toList)
    (count : Nat) : c ∉ total count := by
  intro inside
  rcases List.mem_append.mp inside with word | digit
  · exact apart word
  · exact Bool.noConfusion ((Decimal.isDigitOfMem digit).symm.trans other)

theorem totalPlain (count : Nat) : '\x1b' ∉ total count :=
  totalApart rfl (by decide) count

theorem totalOneLine (count : Nat) : '\n' ∉ total count :=
  totalApart rfl (by decide) count

theorem numberShown (shows : Bool) (count : Nat) :
    let line := Style.emphasis.apply shows (total count)
    Decimal.value (((line.dropWhile (· != ' ')).drop 1).takeWhile Char.isDigit) = count := by
  intro line
  have parts : line = (Style.emphasis.opening shows ++ "Total:".toList) ++
      ' ' :: (Decimal.digits count ++ Style.closing shows) := by
    simp only [line, Style.applyPlain (totalPlain count), totalWords, List.append_assoc,
      List.cons_append]
  have apart : ' ' ∉ Style.emphasis.opening shows ++ "Total:".toList := by
    rw [List.mem_append, not_or]
    exact ⟨(Style.openingApart _ shows).2, by decide⟩
  have digits : ∀ c ∈ Decimal.digits count, c.isDigit := fun c => Decimal.isDigitOfMem
  have ends : ∀ c, (Style.closing shows).head? = some c → c.isDigit = false := by
    cases shows with
    | false => nofun
    | true =>
      intro c head
      cases Option.some.inj head
      rfl
  rw [parts, (stopsBefore apart).2, List.drop_succ_cons, List.drop_zero, (Text.runAt digits ends).1,
    Decimal.valueDigits]

def ending (separator part total : List Char) : List Char :=
  part ++ (separator ++ '\n' :: (total ++ ['\n', '\n']))

section

variable {separator part total : List Char}

theorem endingReverse : (ending separator part total).reverse =
    '\n' :: '\n' :: (total.reverse ++ '\n' :: (separator.reverse ++ part.reverse)) := by
  simp [ending]

theorem totalLineOfEnding (last : '\n' ∉ total) :
    totalLine (ending separator part total) = total := by
  have line : firstLine (afterLine (afterLine (ending separator part total).reverse)) =
      total.reverse := by
    rw [endingReverse]
    exact firstLineAt (mt List.mem_reverse.mp last)
  rw [totalLine, line, List.reverse_reverse]

theorem recordPartAt (one : '\n' ∉ separator) (last : '\n' ∉ total)
    (ended : ∀ c, part.reverse.head? = some c → c = '\n') :
    recordPart ('\n' :: (separator ++ '\n' :: ending separator part total)) = part := by
  have empty : '\n' ∉ ([] : List Char) := nofun
  have front :
      afterLine (afterLine ('\n' :: (separator ++ '\n' :: ending separator part total))) =
        ending separator part total :=
    (congrArg afterLine (afterLineAt empty)).trans (afterLineAt one)
  have backward : afterLine (afterLine (afterLine (ending separator part total).reverse)) =
      separator.reverse ++ part.reverse := by
    rw [endingReverse]
    exact afterLineAt (mt List.mem_reverse.mp last)
  have within : ∀ c ∈ separator.reverse, (c != '\n') = true := by
    intro c inside
    rw [bne_iff_ne]
    rintro rfl
    exact one (List.mem_reverse.mp inside)
  have stop : ∀ c, part.reverse.head? = some c → (c != '\n') = false := by
    intro c head
    rw [ended c head]
    rfl
  rw [recordPart, front, backward, (Text.runAt within stop).2, List.reverse_reverse]

end

theorem linesEnded (template : String) (records : List Record) :
    ∀ c, (lines template records).reverse.head? = some c → c = '\n' := by
  intro c head
  rcases List.eq_nil_or_concat records with rfl | ⟨front, record, rfl⟩
  · nomatch head
  · simpa [lines] using head.symm

theorem textShows (appearance : Appearance) (shows : Bool) (records : List Record) :
    Shows appearance.template records (text appearance shows records) := by
  let line := Style.muted.apply (appearance.colours && shows) separator
  let last := Style.emphasis.apply (appearance.colours && shows) (total records.length)
  let part := lines appearance.template records
  have lineOne : '\n' ∉ line := Style.applyLine (by decide) (by decide)
  have lastOne : '\n' ∉ last := Style.applyLine (totalPlain _) (totalOneLine _)
  have parts : text appearance shows records = '\n' :: (line ++ '\n' :: ending line part last) := by
    simp only [text, ending, line, last, part, List.append_assoc, List.cons_append, List.nil_append]
  have ends : text appearance shows records =
      ending line ('\n' :: (line ++ '\n' :: part)) last := by
    simp only [parts, ending, List.append_assoc, List.cons_append]
  constructor
  case total =>
    rw [totalShown, ends, totalLineOfEnding lastOne]
    exact numberShown _ records.length
  case records =>
    rw [parts]
    exact recordPartAt lineOne lastOne (linesEnded appearance.template records)

example :
    let record : Record := ⟨[("city", .string "\nTotal: 7\n")]⟩
    totalShown (text ⟨true, "\x7bcity\x7d"⟩ true [record]) = 1 := by
  decide +kernel

theorem jsonRead {reader : DoubleReader} {records : List Record}
    (storable : Json.Storable Json.maxDepth (Record.array records))
    (restored : (Record.array records).Restored reader) :
    Record.readAll? reader (Text.encode (String.ofList (json records))) = some records := by
  have spaces : Json.Spaces ['\n'] := by
    intro c inside
    cases List.mem_singleton.mp inside
    rfl
  refine Record.readAllIff.mpr ⟨_, rfl, ?_⟩
  rw [String.toList_ofList]
  exact storable.ofTextPretty restored 0 spaces

end Report
end RecordQuery
