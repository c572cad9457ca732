import Reckoner.Proofs.Running.Endings

/-!
# What runs print

A run that comes to a calculation prints the value on the standard output, or nothing if there is a
fault. At the level of warnings none of its records reaches the console: there stand the report on
the settings, the listing and the tree that were asked for, as far as the calculation came to them,
and the diagnostic of the fault. Neither what is asked for nor the logs change the status and the
standard output.
-/

namespace Reckoner

/-! ### Calculations -/

/-- What a calculation shows: the listing of the tokens if they are asked for and there are any, and
behind it the tree if it is asked for and there is one. -/
def shownText (showTokens showTree : Bool) (limit : Int) (source : String) : String :=
  match scan source with
  | .error _ => ""
  | .ok tokens =>
    (if showTokens then Token.listing tokens ++ "\n" else "") ++
      match Parser.parse tokens (.initial .empty limit) with
      | .error _ _ => ""
      | .ok e _ => if showTree then e.tree ++ "\n" else ""

/-- What an emission puts on the console. -/
def Emission.text : Emission → String
  | printed t => t ++ "\n"
  | _ => ""

/-- A calculation prints the texts of its emissions. -/
theorem Calculation.output_eq (c : Calculation) :
    c.output = String.join (c.emissions.map Emission.text) := rfl

/-- A text that is asked for is printed on lines of its own. -/
private theorem join_printIf (asked : Bool) (text : String) :
    String.join ((Calculation.printIf asked text).map Emission.text) =
      if asked then text ++ "\n" else "" := by
  cases asked <;> simp [Calculation.printIf, Emission.text]

/-- A calculation prints what is asked for, as far as it comes to it. -/
theorem output_calculate (ops : FloatOps) (options : Options) (source : String) :
    (calculate ops options source).output =
      shownText options.showTokens options.showTree options.maxDepth source := by
  rw [Calculation.output_eq]
  unfold calculate shownText
  cases scan source with
  | error f => rfl
  | ok tokens =>
    simp only [Calculation.after, Calculation.parsing, List.map_append, List.map_cons,
      String.join_append, String.join_cons, join_printIf]
    cases Parser.parse tokens (.initial .empty options.maxDepth) with
    | error stop s => simp [Emission.text]
    | ok e s =>
      simp only [Calculation.evaluating, List.map_append, List.map_cons, String.join_append,
        String.join_cons, join_printIf]
      cases e.evaluate ops <;> simp [Emission.text]

/-- What is asked for does not change the result. -/
theorem result_calculate_shown (ops : FloatOps) (showTokens showTree : Bool) (limit : Int)
    (source : String) : (calculate ops ⟨showTokens, showTree, limit⟩ source).result =
      (calculate ops ⟨false, false, limit⟩ source).result := by
  unfold calculate
  cases scan source with
  | error f => rfl
  | ok tokens =>
    simp only [Calculation.after, Calculation.parsing]
    cases Parser.parse tokens (.initial .empty limit) <;> rfl

/-! ### Journals at the level of warnings -/

/-- Debugging notes are below warnings. -/
theorem debugLevel_lt : debugLevel < warningLevel := by decide

/-- Information is below warnings. -/
theorem infoLevel_lt : infoLevel < warningLevel := by decide

/-- No record below the level of warnings reaches the console: the root takes none, and the
calculation log is no console. -/
structure Journal.IsQuiet (j : Journal) : Prop where
  /-- The root takes warnings and what is more severe. -/
  rootLevel : j.loggers.rootLevel = warningLevel
  /-- The calculation log goes to files. -/
  history : ∀ h ∈ j.loggers.historyHandlers, ∃ place, h.sink = .file place

/-- Handlers of files leave the console alone. -/
theorem console_foldl_emit {time : Moment} {r : Record} {hs : List Handler}
    (h : ∀ x ∈ hs, ∃ place, x.sink = .file place) (o : Outlets) :
    (hs.foldl (Handler.emit time r) o).console = o.console := by
  induction hs generalizing o with
  | nil => rfl
  | cons x xs ih =>
    obtain ⟨place, hx⟩ := h x (by simp)
    rw [List.foldl_cons, ih fun y hy => h y (by simp [hy]), Handler.console_emit hx]

namespace Journal.IsQuiet

variable {j : Journal}

/-- A record below the level of warnings does not reach the console. -/
theorem console_log (hj : j.IsQuiet) {r : Record} (hr : r.level < warningLevel) :
    (j.log r).console = j.console := by
  by_cases hapart : j.loggers.isApart r.logger = true
  · unfold Journal.log Loggers.log
    split
    · have hhandlers : j.loggers.handlersOf r.logger = j.loggers.historyHandlers := if_pos hapart
      simp only [Journal.console, Loggers.emit, hhandlers]
      split
      · rw [Loggers.lastResort, if_pos hr]
      · rename_i hs _
        exact console_foldl_emit hj.history _
    · rfl
  · have henabled : j.loggers.isEnabled r.logger r.level = false := by
      simp only [Loggers.isEnabled, Loggers.levelOf, if_neg hapart, hj.rootLevel]
      simp only [Bool.and_eq_false_iff, decide_eq_false_iff_not]
      omega
    rw [log_eq_self henabled]

/-- Logging leaves the loggers as they are. -/
theorem log (hj : j.IsQuiet) (r : Record) : (j.log r).IsQuiet := ⟨hj.rootLevel, hj.history⟩

/-- Printing leaves the loggers as they are. -/
theorem print (hj : j.IsQuiet) (text : String) : (j.print text).IsQuiet :=
  ⟨hj.rootLevel, hj.history⟩

end Journal.IsQuiet

namespace CommandLine

variable {j : Journal}

/-- Noting an emission puts its text on the console. -/
theorem console_note (hj : j.IsQuiet) (e : Emission) :
    (note j e).console = j.console ++ e.text := by
  cases e with
  | printed text => rfl
  | scanned | parsed | evaluated =>
    exact (hj.console_log debugLevel_lt).trans String.append_empty.symm

/-- Noting an emission leaves the loggers as they are. -/
theorem isQuiet_note (hj : j.IsQuiet) (e : Emission) : (note j e).IsQuiet := by
  cases e with
  | printed text => exact hj.print _
  | scanned | parsed | evaluated => exact hj.log _

/-- Noting emissions puts their texts on the console, one after the other. -/
theorem console_foldl_note (hj : j.IsQuiet) (es : List Emission) :
    (es.foldl note j).IsQuiet ∧
      (es.foldl note j).console = j.console ++ String.join (es.map Emission.text) := by
  induction es generalizing j with
  | nil => exact ⟨hj, String.append_empty.symm⟩
  | cons e es ih =>
    obtain ⟨hquiet, hconsole⟩ := ih (isQuiet_note hj e)
    refine ⟨hquiet, ?_⟩
    rw [List.foldl_cons, hconsole, console_note hj, List.map_cons, String.join_cons,
      String.append_assoc]

/-- A record of the calculation log does not reach the console. -/
theorem console_logHistory (hj : j.IsQuiet) (isOpen : Bool) {r : Record}
    (hr : r.level < warningLevel) : (logHistory isOpen j r).console = j.console := by
  cases isOpen with
  | false => rfl
  | true => exact hj.console_log hr

/-- The end of a run closes its calculation log, if it is open, which writes nothing. -/
private theorem console_finish (isOpen : Bool) (status : Nat) (output : String) (j : Journal) :
    (finish isOpen status output j).journal.console = j.console := by
  rw [finish_eq]
  cases closingError? isOpen j <;> cases isOpen <;> rfl

/-- A run that succeeds adds nothing to the console. -/
theorem console_succeed (hj : j.IsQuiet) (isOpen : Bool) (expression : String) (v : Value) :
    (succeed isOpen expression v j).journal.console = j.console := by
  simp only [succeed]
  rw [console_finish, console_logHistory (hj.log _) isOpen infoLevel_lt,
    hj.console_log debugLevel_lt]

/-- A run that fails adds the diagnostic of its fault to the console. -/
theorem console_fail (hj : j.IsQuiet) (isOpen : Bool) (expression : String) (f : Fault) :
    (fail isOpen expression f j).journal.console =
      j.console ++ (f.diagnostic expression ++ "\n") := by
  simp only [fail]
  rw [console_finish]
  refine congrArg (· ++ _) ((console_logHistory (hj.log _) isOpen ?_).trans (hj.console_log ?_))
  · exact infoLevel_lt
  · exact infoLevel_lt

/-- The text of the value is the standard output of a run that succeeds and can close its
calculation log. -/
theorem output_succeed {isOpen : Bool} (h : closingError? isOpen j = none) (expression : String)
    (v : Value) : (succeed isOpen expression v j).output = v.text ++ "\n" := by
  simp only [succeed]
  rw [finish_eq, closingError?_logHistory, closingError?_log, h]

/-- A run that fails has nothing on the standard output. -/
theorem output_fail (isOpen : Bool) (expression : String) (f : Fault) (j : Journal) :
    (fail isOpen expression f j).output = "" := by
  have hfinish (j : Journal) : (finish isOpen 1 "" j).output = "" := by
    rw [finish_eq]
    cases closingError? isOpen j <;> rfl
  exact hfinish _

/-- A run comes to the calculation of an expression and can go through with it: its settings and
arguments ask for one, there is an expression, the nesting limit is valid, the logs can be opened,
and there is room for the line of the calculation log and enough stack. -/
structure Reaches (host : Host) (inv : Invocation) (files : Files) (s : Settings) (a : Arguments)
    (level : Int) (fs : Files) (expression : String) (limit : Int) : Prop where
  /-- A calculation is asked for. -/
  plan : inv.plan? host files = some (s, a)
  /-- The settings name a level. -/
  hasLevel : levelOfSetting s.logLevel = .ok level
  /-- The logs can be opened. -/
  hasLogs : files.openAll? (logPaths a s) = some fs
  /-- There is an expression. -/
  hasExpression : findExpression host a s.maxInputSize inv.input = .ok expression
  /-- The nesting limit is valid. -/
  hasLimit : host.checkLimit a.maxDepth = .ok limit
  /-- The stack does not run out. -/
  hasStack : host.stackEnd? ⟨a.showTokens, a.showTree, limit⟩ expression = none
  /-- The calculation log has room. -/
  hasRoom : ∀ p, calculationPath? a s = some p → files.isFull p.place = false

variable {host : Host} {time : Moment} {inv : Invocation} {files fs : Files} {s : Settings}
  {a : Arguments} {level limit : Int} {expression : String}

/-- A run that comes to a calculation concludes with it. -/
theorem Reaches.run_eq (h : Reaches host inv files s a level fs expression limit)
    (time : Moment) : run host time inv files =
      conclude host ⟨a.showTokens, a.showTree, limit⟩ (calculationPath? a s).isSome expression
        (writing time (host.load inv.environment files).report s level (calculationPath? a s)
          fs) := by
  obtain ⟨i, hi, ho⟩ : ∃ i, (loaded host time inv files).setup s = (i, none) ∧ Opened a s i _ _ :=
    opened_iff.mpr ⟨level, fs, h.hasLevel, h.hasLogs, rfl, rfl⟩
  exact (Course.calculated ⟨h.plan, hi, h.hasExpression⟩ ho
    (options_eq_ok_iff.mpr ⟨limit, h.hasLimit, rfl⟩)).eq_run.symm

/-- A run that comes to a calculation can close its calculation log. -/
theorem Reaches.closingError? (h : Reaches host inv files s a level fs expression limit)
    (time : Moment) (report : String) (es : List Emission) :
    closingError? (calculationPath? a s).isSome
      (es.foldl note (writing time report s level (calculationPath? a s) fs)) = none := by
  rw [closingError?_foldl_note, closingError?_writing]
  cases hp : calculationPath? a s with
  | none => rfl
  | some p =>
    have hroom := h.hasRoom p hp
    rw [← Files.isFull_openAll? h.hasLogs] at hroom
    simp [hroom]

/-- At the level of warnings the journal of a run is quiet. -/
theorem isQuiet_writing (time : Moment) (report : String) (s : Settings) (path? : Option Path)
    (fs : Files) : (writing time report s warningLevel path? fs).IsQuiet := by
  refine ⟨rfl, fun h hh => ?_⟩
  obtain ⟨p, -, rfl⟩ := List.mem_map.mp hh
  exact ⟨p.place, rfl⟩

/-- A run that comes to a calculation succeeds or fails with it. -/
theorem Reaches.cases (h : Reaches host inv files s a level fs expression limit)
    (time : Moment) :
    let isOpen := (calculationPath? a s).isSome
    let c := calculate host.ops ⟨a.showTokens, a.showTree, limit⟩ expression
    let j := c.emissions.foldl note (writing time (host.load inv.environment files).report s level
      (calculationPath? a s) fs)
    (∃ v, (calculate host.ops ⟨false, false, limit⟩ expression).result = .ok v ∧
      run host time inv files = succeed isOpen expression v j) ∨
    ∃ f, (calculate host.ops ⟨false, false, limit⟩ expression).result = .error (.fault f) ∧
      run host time inv files = fail isOpen expression f j := by
  rw [h.run_eq, ← result_calculate_shown host.ops a.showTokens a.showTree]
  exact conclude_cases h.hasStack _ _

/-- A run that comes to a calculation ends with the status zero and the text of the value, or with
the status one and nothing on the standard output. -/
theorem Reaches.result (h : Reaches host inv files s a level fs expression limit)
    (time : Moment) :
    (∃ v, (calculate host.ops ⟨false, false, limit⟩ expression).result = .ok v ∧
      (run host time inv files).ending = .ok 0 ∧
      (run host time inv files).output = v.text ++ "\n") ∨
    ∃ f, (calculate host.ops ⟨false, false, limit⟩ expression).result = .error (.fault f) ∧
      (run host time inv files).ending = .ok 1 ∧ (run host time inv files).output = "" := by
  have hclose := h.closingError? time
  rcases h.cases time with ⟨v, hv, hrun⟩ | ⟨f, hf, hrun⟩
  · rw [hrun, succeed_ending, hclose, output_succeed (hclose _ _)]
    exact .inl ⟨v, hv, rfl, rfl⟩
  · rw [hrun, fail_ending, hclose, output_fail]
    exact .inr ⟨f, hf, rfl, rfl⟩

/-- Two runs that come to the same calculation end with the same status and the same text on the
standard output. -/
theorem Reaches.congr {inv' : Invocation} {files' fs' : Files} {s' : Settings} {a' : Arguments}
    {level' : Int} (h : Reaches host inv files s a level fs expression limit)
    (h' : Reaches host inv' files' s' a' level' fs' expression limit) (time time' : Moment) :
    (run host time' inv' files').ending = (run host time inv files).ending ∧
      (run host time' inv' files').output = (run host time inv files).output := by
  rcases h.result time with ⟨v, hv, he, ho⟩ | ⟨f, hf, he, ho⟩ <;>
    rcases h'.result time' with ⟨v', hv', he', ho'⟩ | ⟨f', hf', he', ho'⟩
  · cases hv.symm.trans hv'
    exact ⟨he'.trans he.symm, ho'.trans ho.symm⟩
  · cases hv.symm.trans hf'
  · cases hf.symm.trans hv'
  · exact ⟨he'.trans he.symm, ho'.trans ho.symm⟩

/-- What a calculation shows stands on the console behind the report, before the run ends. -/
theorem console_noted (ops : FloatOps) (time : Moment) (report : String) (s : Settings)
    (path? : Option Path) (fs : Files) (options : Options) (expression : String) :
    let j := (calculate ops options expression).emissions.foldl note
      (writing time report s warningLevel path? fs)
    j.IsQuiet ∧ j.console = report ++
      shownText options.showTokens options.showTree options.maxDepth expression := by
  have hnoted := console_foldl_note (isQuiet_writing time report s path? fs)
    (calculate ops options expression).emissions
  rw [← Calculation.output_eq, output_calculate] at hnoted
  exact hnoted

/-- At the level of warnings the console of a run that comes to a calculation has the report on the
settings and what the calculation shows, and behind them the diagnostic of a fault. -/
theorem Reaches.console (h : Reaches host inv files s a warningLevel fs expression limit)
    (time : Moment) :
    (run host time inv files).journal.console =
      (host.load inv.environment files).report ++
        shownText a.showTokens a.showTree limit expression ++
        match (calculate host.ops ⟨false, false, limit⟩ expression).result with
        | .error (.fault f) => f.diagnostic expression ++ "\n"
        | _ => "" := by
  obtain ⟨hquiet, hconsole⟩ := console_noted host.ops time
    (host.load inv.environment files).report s (calculationPath? a s) fs
    ⟨a.showTokens, a.showTree, limit⟩ expression
  rcases h.cases time with ⟨v, hv, hrun⟩ | ⟨f, hf, hrun⟩
  · rw [hrun, console_succeed hquiet, hconsole, hv, String.append_empty]
  · rw [hrun, console_fail hquiet, hconsole, hf]

/-- At the level of warnings a run that comes to a calculation with a value ends with the status
zero, has the text of the value on the standard output and what the calculation shows on the
console; one with a fault ends with the status one, has nothing on the standard output and the
diagnostic of the fault behind what the calculation shows. The console begins with the report on the
settings. No other run that comes to the same calculation, whatever it shows and logs and at
whatever level, has another status or another standard output. -/
theorem run_streams (h : Reaches host inv files s a warningLevel fs expression limit)
    (time : Moment) :
    let o := run host time inv files
    let shown := (host.load inv.environment files).report ++
      shownText a.showTokens a.showTree limit expression
    ((∃ v, (calculate host.ops ⟨false, false, limit⟩ expression).result = .ok v ∧
        o.ending = .ok 0 ∧ o.output = v.text ++ "\n" ∧ o.journal.console = shown) ∨
      ∃ f, (calculate host.ops ⟨false, false, limit⟩ expression).result = .error (.fault f) ∧
        o.ending = .ok 1 ∧ o.output = "" ∧
        o.journal.console = shown ++ (f.diagnostic expression ++ "\n")) ∧
    ∀ inv' files' s' a' level' fs' time',
      Reaches host inv' files' s' a' level' fs' expression limit →
        (run host time' inv' files').ending = o.ending ∧
          (run host time' inv' files').output = o.output := by
  intro o shown
  refine ⟨?_, fun inv' files' s' a' level' fs' time' h' => h.congr h' time time'⟩
  have hconsole := h.console time
  rcases h.result time with ⟨v, hv, he, ho⟩ | ⟨f, hf, he, ho⟩
  · rw [hv, String.append_empty] at hconsole
    exact .inl ⟨v, hv, he, ho, hconsole⟩
  · rw [hf] at hconsole
    exact .inr ⟨f, hf, he, ho, hconsole⟩

/-- A host with the default settings and a report on them. -/
def defaultHost (report : String) : Host := .ample .machine fun _ _ => ⟨report, .ok .default⟩

/-- A call that divides by zero, shows everything and keeps a calculation log. -/
def shownQuotient : Invocation := ⟨["--tokens", "--ast", "--log", "h", "1/0"], [], .closed⟩

/-- The same calculation for an expression on the standard input, with nothing shown or logged. -/
def bareQuotient : Invocation := ⟨[], [], .stream "1/0\n"⟩

/-- Both calls fail alike, and the first has shown its tokens and its tree before. -/
theorem run_shownQuotient :
    let o := run (defaultHost "") ⟨"", ""⟩ shownQuotient .empty
    (o.ending = .ok 1 ∧ o.output = "" ∧ o.journal.console =
      shownText true true 100 "1/0" ++ "line 1, column 2: division by zero\n1/0\n ^\n") ∧
    (run (defaultHost "") ⟨"", ""⟩ bareQuotient .empty).ending = .ok 1 := by
  have hresult : (calculate .machine ⟨false, false, 100⟩ "1/0").result =
      .error (.fault ⟨.divisionByZero, ⟨1, 2⟩⟩) := by decide +kernel
  have hdiagnostic : Fault.diagnostic ⟨.divisionByZero, ⟨1, 2⟩⟩ "1/0" ++ "\n" =
      "line 1, column 2: division by zero\n1/0\n ^\n" := by decide +kernel
  have hshown : Reaches (defaultHost "") shownQuotient .empty .default
      ⟨some "1/0", true, true, some "h", some 100⟩ warningLevel ⟨[], [(["h"], "")], []⟩ "1/0"
      100 := by
    constructor
    · decide +kernel
    · decide +kernel
    · rfl
    · rfl
    · rfl
    · rfl
    · exact fun _ _ => rfl
  have hbare : Reaches (defaultHost "") bareQuotient .empty .default
      ⟨none, false, false, none, some 100⟩ warningLevel .empty "1/0" 100 := by
    constructor
    · decide +kernel
    · decide +kernel
    · rfl
    · decide +kernel
    · rfl
    · rfl
    · exact fun _ _ => rfl
  obtain ⟨⟨v, hv, -⟩ | ⟨f, hf, he, ho, hc⟩, hsame⟩ := run_streams hshown ⟨"", ""⟩
  · cases hresult.symm.trans hv
  · cases hresult.symm.trans hf
    rw [hdiagnostic] at hc
    exact ⟨⟨he, ho, hc.trans (congrArg (· ++ _) String.empty_append)⟩,
      (hsame _ _ _ _ _ _ ⟨"", ""⟩ hbare).1.trans he⟩

/-- An environment file with a statement that cannot be read. -/
def unreadableFiles : Files := ⟨[], [([".env"], "=\n")], []⟩

/-- What is reported of this file. -/
def unreadableReport : String := "python-dotenv could not parse statement starting at line 1\n"

/-- What a calculation shows is not all that is on the console. -/
theorem exists_run_with_warning :
    ¬ ∀ (host : Host) (time : Moment) (inv : Invocation) (files fs : Files) (s : Settings)
        (a : Arguments) (expression : String) (limit : Int) (v : Value),
      Reaches host inv files s a warningLevel fs expression limit →
      (calculate host.ops ⟨false, false, limit⟩ expression).result = .ok v →
        (run host time inv files).journal.console =
          shownText a.showTokens a.showTree limit expression := by
  intro h
  have hreaches : Reaches (defaultHost unreadableReport) ⟨["1"], [], .closed⟩ unreadableFiles
      .default ⟨some "1", false, false, none, some 100⟩ warningLevel unreadableFiles "1" 100 := by
    constructor
    · decide +kernel
    · decide +kernel
    · rfl
    · rfl
    · rfl
    · rfl
    · exact fun _ _ => rfl
  have hresult : (calculate .machine ⟨false, false, 100⟩ "1").result =
      .ok (.integer ⟨1, by decide⟩) := by decide +kernel
  have hconsole : (run (defaultHost unreadableReport) ⟨"", ""⟩ ⟨["1"], [], .closed⟩
      unreadableFiles).journal.console ≠ shownText false false 100 "1" := by decide +kernel
  exact hconsole (h _ ⟨"", ""⟩ _ _ _ _ _ _ _ _ hreaches hresult)

end CommandLine

end Reckoner
