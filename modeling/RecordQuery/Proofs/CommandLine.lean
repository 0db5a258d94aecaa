import RecordQuery.CommandLine

/-! Command lines that mix positional arguments and choices in any way. What has been read counts
with its pending argument checked: to that each word adds its own part, and what the choices add
does not depend on their order or on the positional arguments between them. -/
namespace RecordQuery
namespace Arguments

def Bare (text : String) : Prop := text = "-" ∨ text.toList.head? ≠ some '-'

structure Admissible (positionals : List String) : Prop where
  few : positionals.length ≤ 3
  filled : ∀ text ∈ positionals.tail, text ≠ ""

theorem Admissible.before {positionals after : List String}
    (admissible : Admissible (positionals ++ after)) : Admissible positionals where
  few := by
    have few := admissible.few
    simp only [List.length_append] at few
    omega
  filled := by
    intro text inside
    refine admissible.filled text ?_
    cases positionals with
    | nil => simp at inside
    | cons first rest => exact List.mem_append_left after inside

def asked (positionals : List String) (strict json : Bool) (template : Option String) :
    Arguments where
  query := positionals.getD 0 Settings.defaultQuery
  input := positionals.getD 1 Settings.defaultInput
  output := positionals.getD 2 Settings.defaultOutput
  strict := strict
  json := json
  template := template.getD Appearance.defaultTemplate

inductive Choice where
  | strict
  | json
  | template (value : String)
  deriving DecidableEq, Repr

namespace Choice

def word : Choice → String
  | strict => "--strict"
  | json => "--json"
  | template value => "--template=" ++ value

def take (sofar : Partial) : Choice → Except Refusal Partial
  | strict => sofar.setStrict
  | json => sofar.setJson
  | template value => sofar.setTemplate value

def each (strict json : Bool) (template : Option String) : List Choice :=
  (if strict then [.strict] else []) ++ (if json then [.json] else []) ++
    (template.map .template).toList

end Choice

inductive Interleaved : List String → List Choice → List String → Prop
  | nil : Interleaved [] [] []
  | positional {positionals choices words} (text : String)
      (rest : Interleaved positionals choices words) :
      Interleaved (text :: positionals) choices (text :: words)
  | choice {positionals choices words} (choice : Choice)
      (rest : Interleaved positionals choices words) :
      Interleaved positionals (choice :: choices) (choice.word :: words)

variable {sofar whole chosen : Partial} {text : String} {choice : Choice}
  {positionals words : List String} {choices others : List Choice}

theorem bareArgument (bare : Bare text) : Argument.ofString text = .plain text := by
  rcases bare with rfl | bare
  · rfl
  · unfold Argument.ofString
    split <;> simp_all

theorem templateValue (value : String) :
    Argument.ofString (Choice.template value).word = .named "template".toList (some value) := by
  simp [Argument.ofString, Choice.word, Argument.splitValue]

namespace Partial

theorem settleWhole (none : whole.pending = .nothing) : whole.settle = .ok whole := by
  cases whole
  simp_all [settle]

theorem settled (settles : sofar.settle = .ok whole) :
    whole.pending = .nothing ∧ sofar.positionalCount = whole.positionals.length ∧
      sofar.pending ≠ .option := by
  cases waiting : sofar.pending with
  | nothing =>
    simp only [settle, waiting, Except.ok.injEq] at settles
    simp [← settles, positionalCount, waiting]
  | positional text =>
    simp only [settle, waiting, addPositional] at settles
    split at settles <;> cases settles
    simp [positionalCount, waiting]
  | option => simp [settle, waiting] at settles
  | template value =>
    simp only [settle, waiting, setTemplate] at settles
    split at settles <;> cases settles
    simp [positionalCount, waiting]

theorem positionalNext (settles : sofar.settle = .ok whole)
    (admissible : Admissible (whole.positionals ++ text :: positionals)) :
    ∃ next, sofar.positional text = .ok next ∧
      next.settle = .ok { whole with positionals := whole.positionals ++ [text] } := by
  obtain ⟨none, count, -⟩ := settled settles
  have room : ¬ 3 ≤ sofar.positionalCount := by
    have few := admissible.few
    simp only [List.length_append, List.length_cons] at few
    omega
  have filled : ¬ (whole.positionals ≠ [] ∧ text = "") := by
    rintro ⟨started, empty⟩
    obtain ⟨first, rest, shape⟩ := List.exists_cons_of_ne_nil started
    exact admissible.filled text (by simp [shape]) empty
  refine ⟨{ whole with pending := .positional text }, ?_, ?_⟩
  · simp [positional, room, settles, Except.map]
  · simp [settle, addPositional, filled, ← none]

theorem plainPositional (settles : sofar.settle = .ok whole) (text : String) :
    sofar.plain text = sofar.positional text := by
  have free := (settled settles).2.2
  unfold plain
  split <;> simp_all

end Partial

theorem positionalsTaken (settles : sofar.settle = .ok whole)
    (admissible : Admissible (whole.positionals ++ positionals)) :
    ∃ last, positionals.foldlM Partial.positional sofar = .ok last ∧
      last.settle = .ok { whole with positionals := whole.positionals ++ positionals } := by
  induction positionals generalizing sofar whole with
  | nil => exact ⟨sofar, rfl, by simpa using settles⟩
  | cons text positionals ih =>
    obtain ⟨next, taken, settlesNext⟩ := Partial.positionalNext settles admissible
    obtain ⟨last, takenLast, settlesLast⟩ := ih settlesNext (by simpa using admissible)
    refine ⟨last, ?_, by simpa using settlesLast⟩
    rw [List.foldlM_cons, taken]
    exact takenLast

theorem readBare (settles : sofar.settle = .ok whole) (bare : Bare text)
    (admissible : Admissible (whole.positionals ++ text :: positionals)) :
    ∃ next, (∀ rest, read sofar (text :: rest) = read next rest) ∧
      next.settle = .ok { whole with positionals := whole.positionals ++ [text] } := by
  obtain ⟨next, taken, settlesNext⟩ := Partial.positionalNext settles admissible
  refine ⟨next, fun rest => ?_, settlesNext⟩
  rw [read, bareArgument bare]
  simp only [Partial.plainPositional settles, taken, Except.bind]

theorem readChoice (settles : sofar.settle = .ok whole) (choice : Choice) (rest : List String) :
    read sofar (choice.word :: rest) =
      (choice.take whole).bind fun next => read next rest := by
  have flagged (effect : Partial → Except Refusal Partial) :
      sofar.flag none effect = effect whole := by
    simp [Partial.flag, settles, Except.bind]
  have optioned (value : String) : sofar.option (some value) = whole.setTemplate value := by
    simp [Partial.option, settles, Except.bind]
  cases choice with
  | strict =>
    have word : Argument.ofString Choice.strict.word = .named "strict".toList none := rfl
    simp [read, word, Partial.named, flagged, Choice.take]
  | json =>
    have word : Argument.ofString Choice.json.word = .named "json".toList none := rfl
    simp [read, word, Partial.named, flagged, Choice.take]
  | template value => simp [read, templateValue, Partial.named, optioned, Choice.take]

namespace Choice

theorem takeApart (choice : Choice) (positionals : List String) :
    choice.take { whole with positionals := positionals } =
      (choice.take whole).map fun next => { next with positionals := positionals } := by
  cases choice <;>
    simp only [take, Partial.setStrict, Partial.setJson, Partial.setTemplate] <;>
    split <;> rfl

theorem takeKeeps (taken : choice.take whole = .ok chosen) :
    chosen.positionals = whole.positionals ∧ chosen.pending = whole.pending := by
  cases choice <;>
    simp only [take, Partial.setStrict, Partial.setJson, Partial.setTemplate] at taken <;>
    split at taken <;> cases taken <;> exact ⟨rfl, rfl⟩

theorem takeCommutes (choice other : Choice) (whole : Partial) :
    ((choice.take whole).bind fun next => other.take next) =
      (other.take whole).bind fun next => choice.take next := by
  cases choice <;> cases other <;>
    simp only [take, Partial.setStrict, Partial.setJson, Partial.setTemplate, Except.bind] <;>
    grind

theorem takeAllApart (choices : List Choice) (positionals : List String) :
    choices.foldlM take { whole with positionals := positionals } =
      (choices.foldlM take whole).map fun next => { next with positionals := positionals } := by
  induction choices generalizing whole with
  | nil => rfl
  | cons choice choices ih =>
    simp only [List.foldlM_cons, takeApart]
    cases choice.take whole with
    | error refusal => rfl
    | ok next => exact ih

theorem takeAllPermuted (permuted : choices.Perm others) :
    choices.foldlM take whole = others.foldlM take whole := by
  induction permuted generalizing whole with
  | nil => rfl
  | cons choice _ ih => simp only [List.foldlM_cons, ih]
  | swap choice other rest =>
    simp only [List.foldlM_cons, ← bind_assoc]
    exact congrArg (fun taken => taken >>= fun next => rest.foldlM take next)
      (takeCommutes other choice whole)
  | trans _ _ first second => exact first.trans second

theorem takeEach (strict json : Bool) (template : Option String) :
    (each strict json template).foldlM take .start =
      .ok { Partial.start with strict := strict, json := json, template := template } := by
  cases strict <;> cases json <;> cases template <;> rfl

end Choice

theorem readInterleaved (mixed : Interleaved positionals choices words)
    (settles : sofar.settle = .ok whole) (bare : ∀ text ∈ positionals, Bare text)
    (admissible : Admissible (whole.positionals ++ positionals))
    (taken : choices.foldlM Choice.take whole = .ok chosen) :
    ∃ last, (∀ rest, read sofar (words ++ rest) = read last rest) ∧
      last.settle = .ok { chosen with positionals := whole.positionals ++ positionals } := by
  induction mixed generalizing sofar whole chosen with
  | nil =>
    cases Except.ok.inj taken
    exact ⟨sofar, fun _ => rfl, by simpa using settles⟩
  | positional text _ ih =>
    obtain ⟨next, step, settlesNext⟩ :=
      readBare settles (bare text List.mem_cons_self) admissible
    obtain ⟨last, run, settlesLast⟩ := ih settlesNext
      (fun text inside => bare text (List.mem_cons_of_mem _ inside))
      (by simpa using admissible) (by rw [Choice.takeAllApart, taken]; rfl)
    refine ⟨last, fun rest => ?_, by simpa using settlesLast⟩
    rw [List.cons_append, step, run]
  | choice choice _ ih =>
    simp only [List.foldlM_cons] at taken
    cases step : choice.take whole with
    | error refusal => simp [step, bind, Except.bind] at taken
    | ok next =>
      obtain ⟨samePositionals, samePending⟩ := Choice.takeKeeps step
      have settlesNext : next.settle = .ok next :=
        Partial.settleWhole (samePending.trans (Partial.settled settles).1)
      simp only [step, bind, Except.bind] at taken
      obtain ⟨last, run, settlesLast⟩ :=
        ih settlesNext bare (by simpa [samePositionals] using admissible) taken
      refine ⟨last, fun rest => ?_, by simpa [samePositionals] using settlesLast⟩
      rw [List.cons_append, readChoice settles, step]
      exact run rest

section
variable {strict json : Bool} {template : Option String} {after : List String}
  (mixed : Interleaved positionals choices words) (bare : ∀ text ∈ positionals, Bare text)
  (permuted : choices.Perm (Choice.each strict json template))
include mixed bare permuted

theorem readMixed (admissible : Admissible positionals) :
    ∃ last, (∀ rest, read .start (words ++ rest) = read last rest) ∧
      last.settle = .ok ⟨positionals, strict, json, template, .nothing⟩ := by
  have settles : Partial.start.settle = .ok .start := Partial.settleWhole rfl
  have taken : choices.foldlM Choice.take .start = .ok _ :=
    (Choice.takeAllPermuted permuted).trans (Choice.takeEach strict json template)
  exact readInterleaved mixed settles bare admissible taken

theorem ofInterleaved (admissible : Admissible positionals) :
    ofList words = .ok (asked positionals strict json template) := by
  obtain ⟨last, run, settles⟩ := readMixed mixed bare permuted admissible
  have whole : read .start words = .ok last := by simpa [read] using run []
  simp only [ofList, whole, Except.bind, settles]
  rfl

theorem ofSeparated (admissible : Admissible (positionals ++ after)) :
    ofList (words ++ "--" :: after) =
      .ok (asked (positionals ++ after) strict json template) := by
  obtain ⟨last, run, settles⟩ := readMixed mixed bare permuted admissible.before
  obtain ⟨final, runFinal, settlesFinal⟩ := positionalsTaken settles admissible
  have separator : Argument.ofString "--" = .separator := rfl
  have whole : read .start (words ++ "--" :: after) = .ok final := by
    rw [run, read, separator]
    exact runFinal
  simp only [ofList, whole, Except.bind, settlesFinal]
  rfl

end

theorem Interleaved.unmixed (choices : List Choice) :
    Interleaved [] choices (choices.map Choice.word) := by
  induction choices with
  | nil => exact .nil
  | cons choice _ ih => exact .choice choice ih

/-- Every configuration has a line that asks for it, whatever its texts are, and the place of the
choices among the positional arguments and each other does not matter. -/
theorem configurationAsked :
    (∀ (query template input output : String) (strict json : Bool), input ≠ "" → output ≠ "" →
      ofList ((if strict then ["--strict"] else []) ++ (if json then ["--json"] else []) ++
          ["--template=" ++ template, "--", query, input, output]) =
        .ok ⟨query, input, output, strict, json, template⟩) ∧
    ∀ positionals : List String, positionals.length ≤ 3 → (∀ text ∈ positionals, Bare text) →
      (∀ text ∈ positionals.tail, text ≠ "") →
      ∀ (strict json : Bool) (template : Option String) (choices : List Choice)
        (words : List String), choices.Perm (Choice.each strict json template) →
        Interleaved positionals choices words →
        ofList words = .ok (asked positionals strict json template) := by
  constructor
  · intro query template input output strict json hasInput hasOutput
    have admissible : Admissible ([] ++ [query, input, output]) :=
      ⟨by simp, by simp [hasInput, hasOutput]⟩
    have result := ofSeparated (.unmixed (Choice.each strict json template)) (by simp) .rfl
      admissible
    cases strict <;> cases json <;> exact result
  · intro positionals few bare filled strict json template choices words permuted mixed
    exact ofInterleaved mixed bare permuted ⟨few, filled⟩

theorem configurationAskedDashes :
    ofList ["--strict", "--template=a=", "--", "", "--json", "--"] =
        .ok ⟨"", "--json", "--", true, false, "a="⟩ ∧
      ofList ["all", "--template=", "-", "--json"] =
        .ok ⟨"all", "-", Settings.defaultOutput, false, true, ""⟩ := by
  have mixed : Interleaved ["all", "-"] [.template "", .json]
      ["all", "--template=", "-", "--json"] :=
    .positional _ (.choice (.template "") (.positional _ (.choice .json .nil)))
  have bare : ∀ text ∈ ["all", "-"], Bare text := by simp [Bare]
  have permuted : [Choice.template "", .json].Perm (Choice.each false true (some "")) :=
    .swap ..
  exact ⟨configurationAsked.1 "" "a=" "--json" "--" true false (by simp) (by simp),
    configurationAsked.2 ["all", "-"] (by simp) bare (by simp) false true (some "") _ _
      permuted mixed⟩

end Arguments
end RecordQuery
