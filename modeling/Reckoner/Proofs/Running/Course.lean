import Reckoner.CommandLine.Plan
import Reckoner.Proofs.Traps.Calculation

/-!
# The course of a run

The settings of a run, its arguments, its loggers, its input, its calculation log and its options
are looked at in this order. The first of them that stands in the way ends the run, and if none
does, the run comes to a calculation. So there are a few ways in which a run can go, and what holds
for every run is proved for each of them.
-/

namespace Reckoner.CommandLine

variable {host : Host} {time : Moment} {inv : Invocation} {files : Files}

/-- The journal of a run that has loaded its settings: the report on that was written, and nothing
else. -/
def loaded (host : Host) (time : Moment) (inv : Invocation) (files : Files) : Journal :=
  ⟨.initial, ⟨files, (host.load inv.environment files).report⟩, time⟩

/-- What is reported is all that is written before a run has its settings. -/
theorem print_ofFiles (host : Host) (time : Moment) (inv : Invocation) (files : Files) :
    (Journal.ofFiles time files).print (host.load inv.environment files).report =
      loaded host time inv files := by
  simp only [Journal.print, Journal.ofFiles, Outlets.print, String.empty_append]
  rfl

/-- A calculation that a run comes to and that the stack is enough for succeeds or fails, after
everything that it gave off has been noted. -/
theorem conclude_cases {options : Options} {expression : String}
    (h : host.stackEnd? options expression = none) (isOpen : Bool) (j : Journal) :
    (∃ v, (calculate host.ops options expression).result = .ok v ∧
      conclude host options isOpen expression j = succeed isOpen expression v
        ((calculate host.ops options expression).emissions.foldl note j)) ∨
    ∃ f, (calculate host.ops options expression).result = .error (.fault f) ∧
      conclude host options isOpen expression j = fail isOpen expression f
        ((calculate host.ops options expression).emissions.foldl note j) := by
  rcases calculate_result host.ops options expression with ⟨v, hv⟩ | ⟨f, hf⟩
  · refine .inl ⟨v, hv, ?_⟩
    simp only [conclude, h, hv]
  · refine .inr ⟨f, hf, ?_⟩
    simp only [conclude, h, hf]

/-- The path to which the settings send the records besides the console, if there is one. -/
def logPath? (s : Settings) : Option Path :=
  match s.logFile with
  | none | some "" => none
  | some file => some (Path.ofText file)

/-- The calculation log of a run is open, or the run has none. -/
inductive Opened (a : Arguments) (s : Settings) (j : Journal) : Bool → Journal → Prop
  /-- There is no calculation log. -/
  | without (h : historyPath? a s = none) : Opened a s j false j
  /-- The calculation log could be opened. -/
  | log {path text j'} (h : historyPath? a s = some (path, text))
      (ho : j.openHistory path = (j', none)) : Opened a s j true j'

/-- A run has its loggers and its expression. -/
structure Ready (host : Host) (time : Moment) (inv : Invocation) (files : Files) (s : Settings)
    (a : Arguments) (j : Journal) (expression : String) : Prop where
  /-- A calculation is asked for. -/
  plan : inv.plan? host files = some (s, a)
  /-- The loggers are set up. -/
  loggers : (loaded host time inv files).setup s = (j, none)
  /-- There is an expression. -/
  expression : findExpression host a s.maxInputSize inv.input = .ok expression

/-- The ways in which a run can go, each with what leads to it and with its outcome. -/
inductive Course (host : Host) (time : Moment) (inv : Invocation) (files : Files) : Outcome → Prop
  /-- The settings are not valid. -/
  | invalid {i} (hs : (host.load inv.environment files).settings = .error i) :
      Course host time inv files ⟨.error (.invalid i), "", loaded host time inv files⟩
  /-- The arguments are refused. -/
  | misused {s e} (hs : (host.load inv.environment files).settings = .ok s)
      (hr : Request.ofArguments s.maxNestingDepth inv.args = .error e) :
      Course host time inv files (refuse (refusal s.appName e) (loaded host time inv files))
  /-- The help text is asked for. -/
  | helped {s} (hs : (host.load inv.environment files).settings = .ok s)
      (hr : Request.ofArguments s.maxNestingDepth inv.args = .ok .help) :
      Course host time inv files
        ⟨.ok 0, help s.appName s.maxNestingDepth, loaded host time inv files⟩
  /-- The version is asked for. -/
  | versioned {s text} (hs : (host.load inv.environment files).settings = .ok s)
      (hr : Request.ofArguments s.maxNestingDepth inv.args = .ok .version)
      (hv : versionText s.appName s.appVersion = .ok text) :
      Course host time inv files ⟨.ok 0, text, loaded host time inv files⟩
  /-- The version is asked for, but it does not fit. -/
  | unversioned {s m} (hs : (host.load inv.environment files).settings = .ok s)
      (hr : Request.ofArguments s.maxNestingDepth inv.args = .ok .version)
      (hv : versionText s.appName s.appVersion = .error m) :
      Course host time inv files ⟨.error (.version m), "", loaded host time inv files⟩
  /-- The loggers cannot be set up. -/
  | unlogged {s a e j} (hp : inv.plan? host files = some (s, a))
      (hj : (loaded host time inv files).setup s = (j, some e)) :
      Course host time inv files ⟨.error (.setup e), "", j⟩
  /-- There is no expression. -/
  | wordless {s a j} (hp : inv.plan? host files = some (s, a))
      (hj : (loaded host time inv files).setup s = (j, none))
      (he : findExpression host a s.maxInputSize inv.input = .error none) :
      Course host time inv files (refuse (usage s.appName ++ "Error: no expression given\n") j)
  /-- The input is longer than the limit. -/
  | flooded {s a j n} (hp : inv.plan? host files = some (s, a))
      (hj : (loaded host time inv files).setup s = (j, none))
      (he : findExpression host a s.maxInputSize inv.input = .error (some (.tooLarge n))) :
      Course host time inv files
        (refuse ("Error: " ++ (InputError.tooLarge n).message ++ "\n") j)
  /-- The input cannot be read. -/
  | unread {s a j e} (hp : inv.plan? host files = some (s, a))
      (hj : (loaded host time inv files).setup s = (j, none))
      (he : findExpression host a s.maxInputSize inv.input = .error (some e))
      (hn : ∀ n, e ≠ .tooLarge n) : Course host time inv files ⟨.error (.input e), "", j⟩
  /-- The calculation log has a path that no file can have. -/
  | unnamed {s a j expression path text j'} (h : Ready host time inv files s a j expression)
      (hh : historyPath? a s = some (path, text))
      (ho : j.openHistory path = (j', some .nullCharacter)) :
      Course host time inv files ⟨.error (.log .nullCharacter), "", j'⟩
  /-- The calculation log cannot be opened. -/
  | unopened {s a j expression path text j' e} (h : Ready host time inv files s a j expression)
      (hh : historyPath? a s = some (path, text)) (ho : j.openHistory path = (j', some e))
      (hn : e ≠ .nullCharacter) : Course host time inv files
        (refuse ("Error: cannot open log file " ++ text ++ ": " ++ e.message ++ "\n") j')
  /-- The options are not valid. -/
  | unlimited {s a j expression isOpen j' i} (h : Ready host time inv files s a j expression)
      (ho : Opened a s j isOpen j') (hi : a.options host = .error i) :
      Course host time inv files ⟨.error (.invalid i), "", j'⟩
  /-- The run comes to a calculation. -/
  | calculated {s a j expression isOpen j' options}
      (h : Ready host time inv files s a j expression) (ho : Opened a s j isOpen j')
      (hi : a.options host = .ok options) :
      Course host time inv files (conclude host options isOpen expression j')

/-- A run with valid settings does what its arguments ask for. -/
theorem run_of_settings {s : Settings} (h : (host.load inv.environment files).settings = .ok s) :
    run host time inv files = answer host s inv (loaded host time inv files) := by
  simp only [run, h, print_ofFiles]

/-- A run whose settings and arguments ask for a calculation goes on with its loggers. -/
theorem run_of_plan? {s : Settings} {a : Arguments} (h : inv.plan? host files = some (s, a)) :
    run host time inv files =
      calculateRequested host a s inv.input (loaded host time inv files) := by
  unfold Invocation.plan? at h
  cases hs : (host.load inv.environment files).settings with
  | error i => simp [hs] at h
  | ok s' =>
    simp only [hs] at h
    rw [run_of_settings hs]
    simp only [answer]
    cases hr : Request.ofArguments s'.maxNestingDepth inv.args with
    | error e => simp [hr] at h
    | ok r => cases r <;> simp_all

/-- A run that has an expression goes on with its calculation log. -/
private theorem Ready.run_eq {s : Settings} {a : Arguments} {j : Journal} {expression : String}
    (h : Ready host time inv files s a j expression) :
    run host time inv files = calculateLogged host a s expression j := by
  rw [run_of_plan? h.plan, calculateRequested, h.loggers]
  simp only [calculateFound, h.expression]

/-- A run with a calculation log, or without one, ends as its options say. -/
private theorem calculateLogged_of_opened {s : Settings} {a : Arguments} {j j' : Journal}
    {isOpen : Bool} (h : Opened a s j isOpen j') (expression : String) :
    (∀ i, a.options host = .error i →
      calculateLogged host a s expression j = ⟨.error (.invalid i), "", j'⟩) ∧
    ∀ options, a.options host = .ok options →
      calculateLogged host a s expression j = conclude host options isOpen expression j' := by
  cases h with
  | without h =>
    constructor
    · intro i hi
      simp only [calculateLogged, h, hi]
    · intro options hi
      simp only [calculateLogged, h, hi]
  | log h ho =>
    constructor
    · intro i hi
      simp only [calculateLogged, h, ho, hi]
    · intro options hi
      simp only [calculateLogged, h, ho, hi]

/-- A calculation log that cannot be opened ends a run with the status two, unless its path is one
that no file can have. -/
private theorem calculateLogged_of_error {s : Settings} {a : Arguments} {j j' : Journal}
    {path : Path} {text : String} {e : FileError} (h : historyPath? a s = some (path, text))
    (ho : j.openHistory path = (j', some e)) (expression : String) :
    calculateLogged host a s expression j =
      if e = .nullCharacter then ⟨.error (.log .nullCharacter), "", j'⟩
      else refuse ("Error: cannot open log file " ++ text ++ ": " ++ e.message ++ "\n") j' := by
  simp only [calculateLogged, h, ho]
  cases e <;> rfl

/-- What the course of a run says is its outcome. -/
theorem Course.eq_run {o : Outcome} (h : Course host time inv files o) :
    o = run host time inv files := by
  cases h with
  | invalid hs => simp only [run, hs, print_ofFiles]
  | misused hs hr | helped hs hr => simp only [run_of_settings hs, answer, hr]
  | versioned hs hr hv | unversioned hs hr hv => simp only [run_of_settings hs, answer, hr, hv]
  | unlogged hp hj => simp only [run_of_plan? hp, calculateRequested, hj]
  | wordless hp hj he | flooded hp hj he | unread hp hj he hn =>
    simp only [run_of_plan? hp, calculateRequested, hj, calculateFound, he]
  | unnamed h hh ho => rw [h.run_eq, calculateLogged_of_error hh ho, if_pos rfl]
  | unopened h hh ho hn => rw [h.run_eq, calculateLogged_of_error hh ho, if_neg hn]
  | unlimited h ho hi => rw [h.run_eq, (calculateLogged_of_opened ho _).1 _ hi]
  | calculated h ho hi => rw [h.run_eq, (calculateLogged_of_opened ho _).2 _ hi]

/-- A run that has its loggers and its expression goes one of these ways. -/
private theorem Ready.exists_course {s : Settings} {a : Arguments} {j : Journal}
    {expression : String} (h : Ready host time inv files s a j expression) :
    ∃ o, Course host time inv files o := by
  have hopened : ∀ {isOpen j'}, Opened a s j isOpen j' → ∃ o, Course host time inv files o := by
    intro isOpen j' ho
    cases hi : a.options host with
    | error i => exact ⟨_, .unlimited h ho hi⟩
    | ok options => exact ⟨_, .calculated h ho hi⟩
  rcases hh : historyPath? a s with _ | ⟨path, text⟩
  · exact hopened (.without hh)
  · rcases ho : j.openHistory path with ⟨j', _ | e⟩
    · exact hopened (.log hh ho)
    · by_cases hn : e = .nullCharacter
      · subst hn
        exact ⟨_, .unnamed h hh ho⟩
      · exact ⟨_, .unopened h hh ho hn⟩

/-- Every run goes one of these ways. -/
theorem exists_course (host : Host) (time : Moment) (inv : Invocation) (files : Files) :
    ∃ o, Course host time inv files o := by
  cases hs : (host.load inv.environment files).settings with
  | error i => exact ⟨_, .invalid hs⟩
  | ok s =>
    cases hr : Request.ofArguments s.maxNestingDepth inv.args with
    | error e => exact ⟨_, .misused hs hr⟩
    | ok r =>
      cases r with
      | help => exact ⟨_, .helped hs hr⟩
      | version =>
        cases hv : versionText s.appName s.appVersion with
        | ok text => exact ⟨_, .versioned hs hr hv⟩
        | error m => exact ⟨_, .unversioned hs hr hv⟩
      | calculate a =>
        have hp : inv.plan? host files = some (s, a) := by simp [Invocation.plan?, hs, hr]
        rcases hj : (loaded host time inv files).setup s with ⟨j, _ | e⟩
        · cases he : findExpression host a s.maxInputSize inv.input with
          | ok expression => exact Ready.exists_course ⟨hp, hj, he⟩
          | error e =>
            rcases e with _ | _ | _ | _
            · exact ⟨_, .wordless hp hj he⟩
            · exact ⟨_, .flooded hp hj he⟩
            · exact ⟨_, .unread hp hj he (by simp)⟩
            · exact ⟨_, .unread hp hj he (by simp)⟩
        · exact ⟨_, .unlogged hp hj⟩

/-- The course of a run is the one that leads to its outcome. -/
theorem course_run (host : Host) (time : Moment) (inv : Invocation) (files : Files) :
    Course host time inv files (run host time inv files) := by
  obtain ⟨o, h⟩ := exists_course host time inv files
  exact h.eq_run ▸ h

end Reckoner.CommandLine
