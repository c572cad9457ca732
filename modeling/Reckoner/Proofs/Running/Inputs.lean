import Reckoner.Proofs.Running.Contents
import Reckoner.Proofs.Running.Endings

/-!
# Two ways to give an expression

An expression is given behind the divider among the arguments, or on the standard input, where line
ends may follow it. Behind the same switches both ways lead to the same run, as long as the input is
within its limit and an input is taken under this limit. An input that is too long is refused, and
under a limit at which no input is taken none is read at all, while the arguments still are.
-/

namespace Reckoner.CommandLine

/-! ### Switches without an expression -/

/-- A switch that has a value can have this one. -/
def Takes (s : Switch) (value : String) : Prop :=
  s = .log ∨ s = .maxDepth ∧ ∃ n, readDepth value = .ok n

/-- Arguments that are switches for a calculation, each with a value if it has one, and nothing
else. -/
inductive AreSwitches : List String → Prop
  /-- There are no arguments. -/
  | nil : AreSwitches []
  /-- A switch for something that is printed. -/
  | flag {text s rest} (h : Word.ofText text = .ok (.switch s none)) (hs : s = .tokens ∨ s = .tree)
      (hrest : AreSwitches rest) : AreSwitches (text :: rest)
  /-- A switch with a value behind an equals sign. -/
  | attached {text s value rest} (h : Word.ofText text = .ok (.switch s (some value)))
      (ht : Takes s value) (hrest : AreSwitches rest) : AreSwitches (text :: rest)
  /-- A switch with a value that is the next argument. -/
  | separate {text s value rest} (h : Word.ofText text = .ok (.switch s none))
      (hv : Word.ofText value = .ok (.operand value)) (ht : Takes s value)
      (hrest : AreSwitches rest) : AreSwitches (text :: value :: rest)

/-- A value that a switch can have sets it and leaves the expression alone. -/
theorem Takes.exists_setValue {s : Switch} {value : String} (h : Takes s value) (a : Arguments) :
    s.hasValue = true ∧ ∃ a', setValue a s value = .ok a' ∧ a'.expression = a.expression := by
  rcases h with rfl | ⟨rfl, n, hn⟩
  · exact ⟨rfl, _, rfl, rfl⟩
  · refine ⟨rfl, ?_⟩
    unfold setValue
    by_cases hdivider : (value == Word.dividerText) = true
    · simp only [if_pos hdivider]
      exact ⟨_, rfl, rfl⟩
    · simp only [if_neg hdivider, hn]
      exact ⟨_, rfl, rfl⟩

/-- An argument that is no divider is read by its form. -/
theorem Word.ofArguments_cons {text : String} {w : Word} (h : ofText text = .ok w)
    (rest : List String) : ofArguments (text :: rest) = (ofArguments rest).map (w :: ·) := by
  have hne : ¬(text == dividerText) = true := by
    intro heq
    have herror : ofText dividerText = .error (.ambiguous "--" Switch.all) := by decide +kernel
    rw [beq_iff_eq.mp heq, herror] at h
    cases h
  rw [ofArguments, if_neg hne, h]

section Reading

variable {r : Reading} {a : Arguments} {s : Switch} {value : String}

/-- A value that is attached to a switch sets it. -/
theorem readWords_attached (hs : s.hasValue = true) (h : setValue r.arguments s value = .ok a)
    (us : List Word) :
    readWords r (.switch s (some value) :: us) = readWords { r with arguments := a } us := by
  simp only [readWords, hs, if_true, h]

/-- A value that follows a switch sets it. -/
theorem readWords_separate (hs : s.hasValue = true) (h : setValue r.arguments s value = .ok a)
    (us : List Word) :
    readWords r (.switch s none :: .operand value :: us) =
      readWords { r with arguments := a } us := by
  simp only [readWords, hs, if_true, h]

/-- A switch for something that is printed says nothing of the expression. -/
theorem exists_readWords_flag (hs : s = .tokens ∨ s = .tree) (r : Reading) :
    ∃ a, a.expression = r.arguments.expression ∧
      ∀ us, readWords r (.switch s none :: us) = readWords { r with arguments := a } us := by
  rcases hs with rfl | rfl
  · refine ⟨{ r.arguments with showTokens := true }, rfl, ?_⟩
    intro us
    rw [readWords.eq_def r]
    rfl
  · refine ⟨{ r.arguments with showTree := true }, rfl, ?_⟩
    intro us
    rw [readWords.eq_def r]
    rfl

end Reading

/-- Switches are read one by one. What they say does not depend on what follows them, and they give
no expression. -/
theorem AreSwitches.exists_read {opts : List String} (h : AreSwitches opts) (r : Reading) :
    ∃ ws a, a.expression = r.arguments.expression ∧
      (∀ rest, Word.ofArguments (opts ++ rest) = (Word.ofArguments rest).map (ws ++ ·)) ∧
      ∀ us, readWords r (ws ++ us) = readWords { r with arguments := a } us := by
  have hmap (words ws : List Word) (e : Except UsageError (List Word)) :
      (e.map (ws ++ ·)).map (words ++ ·) = e.map (words ++ ws ++ ·) := by
    cases e <;> simp [Except.map]
  induction h generalizing r with
  | nil =>
    refine ⟨[], r.arguments, rfl, ?_, fun us => rfl⟩
    intro rest
    rw [List.nil_append]
    cases Word.ofArguments rest <;> rfl
  | @flag text s rest h hs _ ih =>
    obtain ⟨a, ha, hread⟩ := exists_readWords_flag hs r
    obtain ⟨ws, a', ha', hargs, hwords⟩ := ih { r with arguments := a }
    refine ⟨[.switch s none] ++ ws, a', ha'.trans ha, ?_, ?_⟩
    · intro more
      rw [List.cons_append, Word.ofArguments_cons h, hargs, ← hmap]
      rfl
    · intro us
      exact (hread (ws ++ us)).trans (hwords us)
  | @attached text s value rest h ht _ ih =>
    obtain ⟨hs, a, hset, ha⟩ := ht.exists_setValue r.arguments
    obtain ⟨ws, a', ha', hargs, hwords⟩ := ih { r with arguments := a }
    refine ⟨[.switch s (some value)] ++ ws, a', ha'.trans ha, ?_, ?_⟩
    · intro more
      rw [List.cons_append, Word.ofArguments_cons h, hargs, ← hmap]
      rfl
    · intro us
      exact (readWords_attached hs hset (ws ++ us)).trans (hwords us)
  | @separate text s value rest h hv ht _ ih =>
    obtain ⟨hs, a, hset, ha⟩ := ht.exists_setValue r.arguments
    obtain ⟨ws, a', ha', hargs, hwords⟩ := ih { r with arguments := a }
    refine ⟨[.switch s none, .operand value] ++ ws, a', ha'.trans ha, ?_, ?_⟩
    · intro more
      rw [List.cons_append, List.cons_append, Word.ofArguments_cons h, Word.ofArguments_cons hv,
        hargs, ← hmap]
      cases Word.ofArguments more <;> rfl
    · intro us
      exact (readWords_separate hs hset (ws ++ us)).trans (hwords us)

/-- Behind the same switches an expression may be given or not. -/
theorem AreSwitches.exists_arguments {opts : List String} (h : AreSwitches opts) (maxDepth : Int) :
    ∃ a, a.expression = none ∧ Request.ofArguments maxDepth opts = .ok (.calculate a) ∧
      ∀ expression, Request.ofArguments maxDepth (opts ++ [Word.dividerText, expression]) =
        .ok (.calculate { a with expression := some expression }) := by
  obtain ⟨ws, a, ha, hargs, hwords⟩ := h.exists_read (.start maxDepth)
  refine ⟨a, ha, ?_, ?_⟩
  · have hopts := hargs []
    rw [List.append_nil] at hopts
    rw [Request.ofArguments, hopts]
    exact hwords []
  · intro expression
    rw [Request.ofArguments, hargs, Word.ofArguments_divider]
    exact hwords [.divider, .operand expression]

/-! ### Expressions and inputs -/

/-- Line ends behind a text that does not end with one are not part of the expression. -/
theorem readExpression_lineEnds {cs ends : List Char} {limit : Int}
    (hfits : fitsInteger (limit + 1) = true)
    (hcs : ∀ c ∈ cs.getLast?, Text.isLineEnd c = false)
    (hends : ∀ c ∈ ends, Text.isLineEnd c = true) (hlength : cs.length + ends.length ≤ limit) :
    (readExpression limit (cs ++ ends)).1 = .ok (String.ofList cs) := by
  have hread : readChars (limit + 1) (cs ++ ends) = (cs ++ ends, []) := by
    have hle : (cs ++ ends).length ≤ (limit + 1).toNat := by
      rw [List.length_append]
      omega
    rw [readChars, if_neg (by omega), List.take_of_length_le hle, List.drop_eq_nil_of_le hle]
  have htrim : Text.trimEnd Text.isLineEnd (cs ++ ends) = cs := by
    rw [Text.trimEnd_append hends]
    rcases List.eq_nil_or_concat' cs with rfl | ⟨init, c, rfl⟩
    · rfl
    · exact Text.trimEnd_append_singleton (hcs c (by simp)) init
  have hshort : ¬limit < (cs ++ ends).length := by
    rw [List.length_append]
    omega
  simp only [readExpression, hfits, hread, if_true, if_neg hshort, htrim]

/-- A stream with more characters than the limit is refused. -/
theorem readExpression_tooLarge {cs : List Char} {limit : Int}
    (hfits : fitsInteger (limit + 1) = true) (hlimit : 0 ≤ limit) (hlong : limit < cs.length) :
    (readExpression limit cs).1 = .error (.tooLarge limit) := by
  have hread : (readChars (limit + 1) cs).1.length = limit + 1 := by
    rw [readChars, if_neg (by omega), List.length_take]
    omega
  simp only [readExpression, hfits, if_true, hread]
  rw [if_pos (by omega)]

/-! ### Runs -/

section Runs

variable {host : Host} {opts : List String} {environment : List (String × String)}
  {files fs : Files} {s : Settings} {level : Int}

/-- Behind the same switches a run comes to the same calculation with an expression and without
one, but for that expression. -/
theorem AreSwitches.exists_plan? (h : AreSwitches opts)
    (hs : (host.load environment files).settings = .ok s) :
    ∃ a, a.expression = none ∧
      (∀ input, (⟨opts, environment, input⟩ : Invocation).plan? host files = some (s, a)) ∧
      ∀ expression input,
        (⟨opts ++ [Word.dividerText, expression], environment, input⟩ : Invocation).plan? host
          files = some (s, { a with expression := some expression }) := by
  obtain ⟨a, ha, hwithout, hwith⟩ := h.exists_arguments s.maxNestingDepth
  refine ⟨a, ha, ?_, ?_⟩
  · intro input
    simp only [Invocation.plan?, hs, hwithout]
  · intro expression input
    simp only [Invocation.plan?, hs, hwith]

/-- An input that is taken is read. -/
private theorem Host.TakesInput.findExpression_eq {a : Arguments} {limit : Int}
    (h : host.TakesInput limit) (ha : a.expression = none) (content : String) :
    findExpression host a limit (.stream content) =
      (readExpression limit content.toList).1.mapError some := by
  simp [findExpression, ha, h.2]

/-- Line ends behind the expression on the standard input do not matter, and neither does whether
the expression is there or among the arguments. -/
theorem AreSwitches.run_eq (h : AreSwitches opts)
    (hs : (host.load environment files).settings = .ok s)
    (htakes : host.TakesInput s.maxInputSize) (time : Moment)
    {expression ends : String} (input : StandardInput)
    (hexpression : ∀ c ∈ expression.toList.getLast?, Text.isLineEnd c = false)
    (hends : ∀ c ∈ ends.toList, Text.isLineEnd c = true)
    (hlength : expression.length + ends.length ≤ s.maxInputSize) :
    run host time ⟨opts ++ [Word.dividerText, expression], environment, input⟩ files =
      run host time ⟨opts, environment, .stream (expression ++ ends)⟩ files := by
  obtain ⟨a, ha, hwithout, hwith⟩ := h.exists_plan? hs
  have hread : findExpression host a s.maxInputSize (.stream (expression ++ ends)) =
      .ok expression := by
    have hlist := readExpression_lineEnds htakes.1 hexpression hends
      (by rwa [String.length_toList, String.length_toList])
    rw [htakes.findExpression_eq ha, String.toList_append, hlist, String.ofList_toList]
    rfl
  have hloaded : loaded host time ⟨opts ++ [Word.dividerText, expression], environment, input⟩
      files = loaded host time ⟨opts, environment, .stream (expression ++ ends)⟩ files := rfl
  rw [run_of_plan? (hwith expression input), run_of_plan? (hwithout _), calculateRequested,
    calculateRequested, hloaded]
  rcases (loaded host time ⟨opts, environment, .stream (expression ++ ends)⟩ files).setup s with
    ⟨j, _ | e⟩
  · simp only [calculateFound, hread]
    rfl
  · rfl

/-- A run that reads an input with more characters than the limit reports that and ends with the
status two. Nothing is written to any file. -/
theorem AreSwitches.run_tooLarge (h : AreSwitches opts)
    (hs : (host.load environment files).settings = .ok s)
    (htakes : host.TakesInput s.maxInputSize) (time : Moment)
    {content : String} (hlimit : 0 ≤ s.maxInputSize) (hlong : s.maxInputSize < content.length)
    (hlevel : levelOfSetting s.logLevel = .ok level)
    (hfs : files.openAll? (logPath? s).toList = some fs) :
    let o := run host time ⟨opts, environment, .stream content⟩ files
    o.ending = .ok 2 ∧ o.output = "" ∧
    o.journal.console = (host.load environment files).report ++
      ("Error: input exceeds " ++ toString s.maxInputSize ++ " characters\n") ∧
    ∀ place, o.journal.files.content place = files.content place := by
  obtain ⟨a, ha, hwithout, -⟩ := h.exists_plan? hs
  have hread : findExpression host a s.maxInputSize (.stream content) =
      .error (some (.tooLarge s.maxInputSize)) := by
    have hlength : s.maxInputSize < content.toList.length := by rwa [String.length_toList]
    rw [htakes.findExpression_eq ha, readExpression_tooLarge htakes.1 hlimit hlength]
    rfl
  have hready : (loaded host time ⟨opts, environment, .stream content⟩ files).setup s = _ :=
    setup_loaded_iff.mpr ⟨level, fs, hlevel, hfs, rfl⟩
  intro o
  have ho : o = refuse _ _ := (Course.flooded (hwithout _) hready hread).eq_run.symm
  rw [ho]
  refine ⟨rfl, rfl, ?_, ?_⟩
  · have htext : ("Error: input exceeds " : String) = "Error: " ++ "input exceeds " := by
      decide +kernel
    rw [htext]
    simp only [refuse, Journal.console, Journal.print, Outlets.print, writing, InputError.message,
      String.append_assoc]
    rfl
  · intro place
    exact Files.content_openAll? hfs place

/-- Behind the same switches an expression among the arguments and the same expression on the
standard input, with or without line ends behind it, lead to the same run, as long as an input is
taken under the limit; and an input with more characters than the limit is refused, with nothing on
the standard output and nothing written to any file. Under a limit at which no input is taken, no
run that reads the input ends with a status. -/
theorem run_inputs (h : AreSwitches opts)
    (hs : (host.load environment files).settings = .ok s) (time : Moment) :
    (host.TakesInput s.maxInputSize →
      (∀ (expression ends : String) (input : StandardInput),
        (∀ c ∈ expression.toList.getLast?, Text.isLineEnd c = false) →
        (∀ c ∈ ends.toList, Text.isLineEnd c = true) →
        expression.length + ends.length ≤ s.maxInputSize →
          run host time ⟨opts ++ [Word.dividerText, expression], environment, input⟩ files =
            run host time ⟨opts, environment, .stream (expression ++ ends)⟩ files) ∧
      ∀ (content : String) (level : Int) (fs : Files), 0 ≤ s.maxInputSize →
        s.maxInputSize < content.length → levelOfSetting s.logLevel = .ok level →
        files.openAll? (logPath? s).toList = some fs →
          let o := run host time ⟨opts, environment, .stream content⟩ files
          o.ending = .ok 2 ∧ o.output = "" ∧
          o.journal.console = (host.load environment files).report ++
            ("Error: input exceeds " ++ toString s.maxInputSize ++ " characters\n") ∧
          ∀ place, o.journal.files.content place = files.content place) ∧
    (¬ host.TakesInput s.maxInputSize → ∀ content, ∃ abort,
      (run host time ⟨opts, environment, .stream content⟩ files).ending = .error abort) := by
  constructor
  · intro htakes
    constructor
    · intro expression ends input hexpression hends hlength
      exact h.run_eq hs htakes time input hexpression hends hlength
    · intro content level fs hlimit hlong hlevel hfs
      exact h.run_tooLarge hs htakes time hlimit hlong hlevel hfs
  · intro htakes content
    obtain ⟨a, ha, hwithout, -⟩ := h.exists_plan? hs
    exact ending_of_not_takesInput (hwithout (.stream content)) ha rfl htakes time

/-- Shortened switches with an attached value and with one that follows. -/
private def severalSwitches : List String := ["--to", "--log=h", "--max-depth", "7"]

private theorem areSwitches_several : AreSwitches severalSwitches :=
  .flag (show Word.ofText "--to" = .ok (.switch .tokens none) by decide +kernel) (.inl rfl)
    (.attached (show Word.ofText "--log=h" = .ok (.switch .log (some "h")) by decide +kernel)
      (.inl rfl)
      (.separate (show Word.ofText "--max-depth" = .ok (.switch .maxDepth none) by decide +kernel)
        (show Word.ofText "7" = .ok (.operand "7") by decide +kernel)
        (.inr ⟨rfl, 7, by decide +kernel⟩) .nil))

/-- A host whose settings have a limit of the input. -/
private def limitedHost (limit : Int) : Host :=
  .ample .machine fun _ _ => ⟨"", .ok { Settings.default with maxInputSize := limit }⟩

/-- Under a limit of four characters `--1` runs in the same way among the arguments and on the
standard input with a line end, and with two of them it is refused. -/
theorem run_inputs_signs :
    let environment := [("EXPRCALC_MAX_INPUT_SIZE", "4")]
    run (limitedHost 4) ⟨"", ""⟩ ⟨severalSwitches ++ ["--", "--1"], environment, .closed⟩ .empty =
      run (limitedHost 4) ⟨"", ""⟩ ⟨severalSwitches, environment, .stream "--1\n"⟩ .empty ∧
    (run (limitedHost 4) ⟨"", ""⟩ ⟨severalSwitches, environment, .stream "--1\r\n"⟩
      .empty).ending = .ok 2 := by
  intro environment
  have hs : ((limitedHost 4).load environment .empty).settings =
      .ok { Settings.default with maxInputSize := 4 } := rfl
  obtain ⟨hequal, hlong⟩ := (run_inputs areSwitches_several hs ⟨"", ""⟩).1 ⟨by decide, rfl⟩
  refine ⟨hequal "--1" "\n" .closed (by simp [Text.isLineEnd]) (by simp [Text.isLineEnd])
    (by decide +kernel), ?_⟩
  exact (hlong "--1\r\n" warningLevel .empty (by decide +kernel) (by decide +kernel)
    (by decide +kernel) rfl).1

/-- Where everything can be read that can be asked for, a limit of the input that is a greatest
integer does not let an expression be read, although it is within the limit and runs among the
arguments. -/
theorem exists_run_inputs_ne :
    ¬ ∀ (host : Host) (time : Moment) (opts : List String)
        (environment : List (String × String)) (files : Files) (s : Settings)
        (expression ends : String) (input : StandardInput),
      (∀ count, host.canRead count = true) → AreSwitches opts →
      (host.load environment files).settings = .ok s →
      (∀ c ∈ expression.toList.getLast?, Text.isLineEnd c = false) →
      (∀ c ∈ ends.toList, Text.isLineEnd c = true) →
      expression.length + ends.length ≤ s.maxInputSize →
        run host time ⟨opts ++ [Word.dividerText, expression], environment, input⟩ files =
          run host time ⟨opts, environment, .stream (expression ++ ends)⟩ files := by
  intro h
  let environment := [("EXPRCALC_MAX_INPUT_SIZE", "9223372036854775807")]
  let host := limitedHost 9223372036854775807
  have hequal := h host ⟨"", ""⟩ [] environment .empty _ "1" "" .closed (fun _ => rfl) .nil rfl
    (by simp [Text.isLineEnd]) (by simp) (by decide +kernel)
  have hargument : (run host ⟨"", ""⟩ ⟨[] ++ [Word.dividerText, "1"], environment, .closed⟩
      .empty).ending = .ok 0 := by decide +kernel
  have hinput : (run host ⟨"", ""⟩ ⟨[], environment, .stream ("1" ++ "")⟩ .empty).ending =
      .error (.input .unboundedLimit) := by decide +kernel
  rw [hequal, hinput] at hargument
  cases hargument

end Runs

end Reckoner.CommandLine
