import Reckoner.Proofs.Running.Contents

/-!
# How runs end

Most runs with valid settings end with the status zero, one or two. Some things come out of the
settings and the arguments without having been looked at, and let a run end without a status: a
version that does not fit as a template, a level that is the name of something else, a file for the
records that cannot be opened, a limit of the input that asks for more characters than can be read,
a null character in the path of the calculation log, and a nesting limit that is not positive or is
left out. So do a stack that runs out in the calculation and a calculation log without room for its
line. Nothing else does.
-/

namespace Reckoner.CommandLine

/-! ### Nesting limits of arguments -/

/-- A nesting limit, if there is one, is the one of the settings or positive. -/
def IsGuarded (setting : Int) (limit : Option Int) : Prop :=
  ∀ d, limit = some d → d = setting ∨ 0 < d

/-- A nesting limit that is read is positive. -/
theorem readDepth_pos {value : String} {d : Int} (h : readDepth value = .ok d) : 0 < d := by
  unfold readDepth at h
  split at h
  · cases h
  · split at h
    · cases h
    · split at h
      · rename_i hd
        cases h
        exact hd
      · cases h

variable {setting : Int}

/-- Setting a switch keeps the nesting limit guarded. -/
theorem IsGuarded.setValue {a a' : Arguments} {s : Switch} {value : String}
    (ha : IsGuarded setting a.maxDepth) (h : setValue a s value = .ok a') :
    IsGuarded setting a'.maxDepth := by
  unfold CommandLine.setValue at h
  dsimp only at h
  split at h
  · cases h
    exact ha
  · cases h
    intro d hd
    cases hd
  · rename_i text _
    cases hn : readDepth text with
    | error e => simp [hn, Except.map] at h
    | ok n =>
      simp only [hn, Except.map, Except.ok.injEq] at h
      subst h
      intro d hd
      cases hd
      exact .inr (readDepth_pos hn)
  · cases h

/-- Whatever the arguments are, the nesting limit stays guarded while they are read. -/
theorem IsGuarded.readWords {r : Reading} {ws : List Word} {a : Arguments}
    (hr : IsGuarded setting r.arguments.maxDepth) (h : readWords r ws = .ok (.calculate a)) :
    IsGuarded setting a.maxDepth := by
  fun_induction CommandLine.readWords r ws
  case case1 r =>
    unfold Reading.finish at h
    split at h <;> cases h
    exact hr
  case case3 text _ =>
    unfold readLetters at h
    dsimp only at h
    split at h <;> cases h
  case case11 hset ih => exact ih (hr.setValue hset) h
  case case13 hset ih => exact ih (hr.setValue hset) h
  -- Whatever else is read leaves the limit as it is or ends the reading.
  all_goals first
    | cases h
    | rename_i ih
      exact ih hr h

variable {host : Host} {time : Moment} {inv : Invocation} {files : Files} {s : Settings}
  {a : Arguments}

/-- The options of a calculation have the nesting limit that the host finds valid. -/
theorem options_eq_ok_iff {options : Options} : a.options host = .ok options ↔
    ∃ limit, host.checkLimit a.maxDepth = .ok limit ∧
      options = ⟨a.showTokens, a.showTree, limit⟩ := by
  unfold Arguments.options
  cases host.checkLimit a.maxDepth with
  | error i => simp [Except.map]
  | ok limit => simp [Except.map, eq_comm]

/-- There are no options if the host does not find the nesting limit valid. -/
theorem options_eq_error_iff {i : Invalid} : a.options host = .error i ↔
    host.checkLimit a.maxDepth = .error i := by
  unfold Arguments.options
  cases host.checkLimit a.maxDepth <;> simp [Except.map]

/-- A nesting limit is valid if there is one and it is positive, and in no other case. -/
theorem Host.ChecksLimits.exists_error_iff (hlimits : host.ChecksLimits) {limit : Option Int} :
    (∃ i, host.checkLimit limit = .error i) ↔ ∀ d, limit = some d → d ≤ 0 := by
  constructor
  · rintro ⟨i, hi⟩ d rfl
    by_contra hpos
    rw [hlimits.positive d (Int.not_le.mp hpos)] at hi
    cases hi
  · intro h
    cases limit with
    | none => exact hlimits.absent
    | some d => exact hlimits.other d (h d rfl)

/-- An input is taken under a limit: one character more than the limit can be asked for and be
read. -/
def Host.TakesInput (host : Host) (limit : Int) : Prop :=
  fitsInteger (limit + 1) = true ∧ host.canRead (limit + 1) = true

/-- Only where the expression is in the input, and no input is taken under the limit, can there be
an error other than too many characters. -/
theorem exists_unread_iff {limit : Int} {input : StandardInput} :
    (∃ e, findExpression host a limit input = .error (some e) ∧ ∀ n, e ≠ .tooLarge n) ↔
      a.expression = none ∧ (∃ content, input = .stream content) ∧ ¬ host.TakesInput limit := by
  unfold findExpression Host.TakesInput
  cases ha : a.expression with
  | some expression => simp
  | none =>
    cases input with
    | closed | terminal => simp
    | stream content =>
      by_cases hfits : fitsInteger (limit + 1) = true
      · cases hread : host.canRead (limit + 1) with
        | false => simp [hfits]
        | true =>
          simp only [readExpression, hfits, if_true, Bool.not_true, Bool.and_false,
            Bool.false_eq_true, if_false]
          split <;> simp [Except.mapError]
      · simp [readExpression, hfits, Except.mapError]

/-! ### Closing the calculation log -/

/-- What goes wrong when the calculation log is closed, if it is open. -/
def closingError? (isOpen : Bool) (j : Journal) : Option FileError :=
  if isOpen then j.closeHistory.2 else none

/-- A run ends as it has to unless its calculation log cannot be closed. -/
theorem finish_eq (isOpen : Bool) (status : Nat) (output : String) (j : Journal) :
    finish isOpen status output j =
      let j' := if isOpen then j.closeHistory.1 else j
      match closingError? isOpen j with
      | none => ⟨.ok status, output, j'⟩
      | some e => ⟨.error (.log e), "", j'⟩ := by
  cases isOpen with
  | false => rfl
  | true =>
    simp only [finish, closingError?, if_true]
    rcases j.closeHistory with ⟨j', _ | e⟩ <;> rfl

/-- Logging a record does not change whether the calculation log can be closed. -/
theorem closingError?_log (isOpen : Bool) (j : Journal) (r : Record) :
    closingError? isOpen (j.log r) = closingError? isOpen j := by
  simp only [closingError?, Journal.closeHistory, Loggers.closeHistory, Journal.isFull_log]
  rfl

/-- Logging to the calculation log does not change whether it can be closed. -/
theorem closingError?_logHistory (isOpen : Bool) (j : Journal) (r : Record) :
    closingError? isOpen (logHistory isOpen j r) = closingError? isOpen j := by
  unfold logHistory
  split
  · exact closingError?_log isOpen j r
  · rfl

/-- What a calculation gives off does not change whether the calculation log can be closed. -/
theorem closingError?_foldl_note (isOpen : Bool) (j : Journal) (es : List Emission) :
    closingError? isOpen (es.foldl note j) = closingError? isOpen j := by
  induction es generalizing j with
  | nil => rfl
  | cons e es ih =>
    rw [List.foldl_cons, ih]
    cases e with
    | printed text => rfl
    | scanned | parsed | evaluated => exact closingError?_log isOpen j _

/-- The calculation log of a run can be closed if its file has room. -/
theorem closingError?_writing (time : Moment) (report : String) (s : Settings) (level : Int)
    (path? : Option Path) (fs : Files) :
    closingError? path?.isSome (writing time report s level path? fs) =
      path?.bind fun p => if fs.isFull p.place then some .noSpace else none := by
  cases path? with
  | none => rfl
  | some p =>
    simp [closingError?, writing, Journal.closeHistory, Loggers.closeHistory, Journal.files]

/-- The ending of a run that succeeds. -/
theorem succeed_ending (isOpen : Bool) (expression : String) (v : Value) (j : Journal) :
    (succeed isOpen expression v j).ending =
      match closingError? isOpen j with
      | none => .ok 0
      | some e => .error (.log e) := by
  simp only [succeed]
  rw [finish_eq, closingError?_logHistory, closingError?_log]
  cases closingError? isOpen j <;> rfl

/-- The ending of a run that fails. -/
theorem fail_ending (isOpen : Bool) (expression : String) (f : Fault) (j : Journal) :
    (fail isOpen expression f j).ending =
      match closingError? isOpen j with
      | none => .ok 1
      | some e => .error (.log e) := by
  have hprint (j : Journal) (text : String) :
      closingError? isOpen (j.print text) = closingError? isOpen j := rfl
  simp only [fail]
  rw [finish_eq, hprint, closingError?_logHistory, closingError?_log]
  cases closingError? isOpen j <;> rfl

/-! ### Endings -/

/-- What lets a run end without a status although its settings are valid. -/
inductive Escapes (host : Host) (inv : Invocation) (files : Files) : Prop
  /-- The version is asked for, but it does not fit as a template. -/
  | version {s : Settings} {m} (hs : (host.load inv.environment files).settings = .ok s)
      (hr : Request.ofArguments s.maxNestingDepth inv.args = .ok .version)
      (hv : versionText s.appName s.appVersion = .error m)
  /-- The level of the records is the name of something else. -/
  | level {s : Settings} {a : Arguments} {e} (hp : inv.plan? host files = some (s, a))
      (hl : levelOfSetting s.logLevel = .error e)
  /-- The file of the records cannot be opened. -/
  | records {s : Settings} {a : Arguments} (hp : inv.plan? host files = some (s, a))
      (hf : files.openAll? (logPath? s).toList = none)
  /-- The expression is in the input, but no input is taken under the limit. -/
  | input {s : Settings} {a : Arguments} {content} (hp : inv.plan? host files = some (s, a))
      (ha : a.expression = none) (hi : inv.input = .stream content)
      (hm : ¬ host.TakesInput s.maxInputSize)
  /-- There is an expression, but the path of the calculation log has a null character. -/
  | path {s : Settings} {a : Arguments} {expression fs p}
      (hp : inv.plan? host files = some (s, a))
      (hf : files.openAll? (logPath? s).toList = some fs)
      (he : findExpression host a s.maxInputSize inv.input = .ok expression)
      (hh : calculationPath? a s = some p) (hn : (fs.openLog p).2 = some .nullCharacter)
  /-- There is an expression and the logs can be opened, but the nesting limit is left out, or it is
  a setting that is not positive. -/
  | limit {s : Settings} {a : Arguments} {expression fs}
      (hp : inv.plan? host files = some (s, a))
      (hf : files.openAll? (logPaths a s) = some fs)
      (he : findExpression host a s.maxInputSize inv.input = .ok expression)
      (hd : a.maxDepth = none ∨ a.maxDepth = some s.maxNestingDepth ∧ s.maxNestingDepth ≤ 0)
  /-- The stack runs out in the calculation. -/
  | stack {s : Settings} {a : Arguments} {expression fs limit n}
      (hp : inv.plan? host files = some (s, a))
      (hf : files.openAll? (logPaths a s) = some fs)
      (he : findExpression host a s.maxInputSize inv.input = .ok expression)
      (hd : host.checkLimit a.maxDepth = .ok limit)
      (hn : host.stackEnd? ⟨a.showTokens, a.showTree, limit⟩ expression = some n)
  /-- The calculation log has no room for its line. -/
  | room {s : Settings} {a : Arguments} {expression fs limit p}
      (hp : inv.plan? host files = some (s, a))
      (hf : files.openAll? (logPaths a s) = some fs)
      (he : findExpression host a s.maxInputSize inv.input = .ok expression)
      (hd : host.checkLimit a.maxDepth = .ok limit) (hh : calculationPath? a s = some p)
      (hn : files.isFull p.place = true)

/-- A run ends without a status if its loggers cannot be set up, and so it does in any case if it
does when they can. -/
private theorem ending_of_ready (hp : inv.plan? host files = some (s, a))
    (h : ∀ level fs, levelOfSetting s.logLevel = .ok level →
      files.openAll? (logPath? s).toList = some fs →
      ∃ e, (run host time inv files).ending = .error e) :
    ∃ e, (run host time inv files).ending = .error e := by
  rcases hj : (loaded host time inv files).setup s with ⟨j, _ | e⟩
  · obtain ⟨level, fs, hlevel, hfs, -⟩ := setup_loaded_iff.mp hj
    exact h level fs hlevel hfs
  · rw [← (Course.unlogged hp hj).eq_run]
    exact ⟨_, rfl⟩

/-- A run that reads its input ends without a status if no input is taken under the limit. -/
theorem ending_of_not_takesInput {content : String} (hp : inv.plan? host files = some (s, a))
    (ha : a.expression = none) (hi : inv.input = .stream content)
    (hm : ¬ host.TakesInput s.maxInputSize) (time : Moment) :
    ∃ e, (run host time inv files).ending = .error e := by
  refine ending_of_ready hp fun level fs hlevel hfs => ?_
  have hj : (loaded host time inv files).setup s = _ :=
    setup_loaded_iff.mpr ⟨level, fs, hlevel, hfs, rfl⟩
  obtain ⟨e, he, hn⟩ := exists_unread_iff.mpr ⟨ha, ⟨content, hi⟩, hm⟩
  rw [← (Course.unread hp hj he hn).eq_run]
  exact ⟨_, rfl⟩

/-- A run that can open its logs ends without a status if it does whenever it has its loggers and
its calculation log. -/
private theorem ending_of_opened {expression : String} {fs : Files}
    (hp : inv.plan? host files = some (s, a)) (hf : files.openAll? (logPaths a s) = some fs)
    (he : findExpression host a s.maxInputSize inv.input = .ok expression)
    (h : ∀ j level, Ready host time inv files s a j expression →
      Opened a s j (calculationPath? a s).isSome
        (writing time (host.load inv.environment files).report s level (calculationPath? a s) fs) →
      ∃ e, (run host time inv files).ending = .error e) :
    ∃ e, (run host time inv files).ending = .error e := by
  refine ending_of_ready hp fun level _ hlevel _ => ?_
  obtain ⟨j, hj, ho⟩ : ∃ j, (loaded host time inv files).setup s = (j, none) ∧ Opened a s j _ _ :=
    opened_iff.mpr ⟨level, fs, hlevel, hf, rfl, rfl⟩
  exact h j level ⟨hp, hj, he⟩ ho

/-- A run that comes to a calculation ends without a status if the stack runs out or its calculation
log has no room. -/
private theorem exists_conclude_error {options : Options} {expression : String} {isOpen : Bool}
    {j : Journal}
    (h : (∃ n, host.stackEnd? options expression = some n) ∨ ∃ e, closingError? isOpen j = some e) :
    ∃ e, (conclude host options isOpen expression j).ending = .error e := by
  cases hn : host.stackEnd? options expression with
  | some n => exact ⟨.stackEnd, by simp only [conclude, hn, quit]⟩
  | none =>
    obtain ⟨n, h⟩ | ⟨e, he⟩ := h
    · rw [hn] at h
      cases h
    · refine ⟨.log e, ?_⟩
      rcases conclude_cases hn isOpen j with ⟨v, -, hv⟩ | ⟨f, -, hf⟩
      · rw [hv, succeed_ending, closingError?_foldl_note, he]
      · rw [hf, fail_ending, closingError?_foldl_note, he]

/-- A run that escapes ends without a status. -/
theorem Escapes.ending (h : Escapes host inv files) (hlimits : host.ChecksLimits) (time : Moment) :
    ∃ e, (run host time inv files).ending = .error e := by
  cases h with
  | version hs hr hv =>
    rw [← (Course.unversioned hs hr hv).eq_run]
    exact ⟨_, rfl⟩
  | level hp hl =>
    refine ending_of_ready hp fun level fs hlevel _ => ?_
    rw [hl] at hlevel
    cases hlevel
  | records hp hf =>
    refine ending_of_ready hp fun level fs _ hfs => ?_
    rw [hf] at hfs
    cases hfs
  | input hp ha hi hm => exact ending_of_not_takesInput hp ha hi hm time
  | @path s a expression fs p hp hf he hh hn =>
    refine ending_of_ready hp fun level fs' hlevel hf' => ?_
    cases hf.symm.trans hf'
    have hj : (loaded host time inv files).setup s = _ :=
      setup_loaded_iff.mpr ⟨level, fs, hlevel, hf, rfl⟩
    obtain ⟨⟨path, text⟩, hpath, rfl⟩ := Option.map_eq_some_iff.mp hh
    have ho : (writing time (host.load inv.environment files).report s level none fs).openHistory
        path = _ := openHistory_writing path
    rcases hl : fs.openLog path with ⟨fs', e?⟩
    obtain rfl : e? = some .nullCharacter := by simpa [hl] using hn
    rw [hl] at ho
    rw [← (Course.unnamed ⟨hp, hj, he⟩ hpath ho).eq_run]
    exact ⟨_, rfl⟩
  | @limit s a expression fs hp hf he hd =>
    refine ending_of_opened hp hf he fun j level hready ho => ?_
    obtain ⟨i, hi⟩ : ∃ i, host.checkLimit a.maxDepth = .error i := by
      refine hlimits.exists_error_iff.mpr fun d hsome => ?_
      rcases hd with hd | ⟨hd, hle⟩ <;> cases hd.symm.trans hsome
      exact hle
    rw [← (Course.unlimited hready ho (options_eq_error_iff.mpr hi)).eq_run]
    exact ⟨_, rfl⟩
  | stack hp hf he hd hn =>
    refine ending_of_opened hp hf he fun j level hready ho => ?_
    rw [← (Course.calculated hready ho (options_eq_ok_iff.mpr ⟨_, hd, rfl⟩)).eq_run]
    exact exists_conclude_error (.inl ⟨_, hn⟩)
  | @room s a expression fs limit p hp hf he hd hh hn =>
    refine ending_of_opened hp hf he fun j level hready ho => ?_
    rw [← (Course.calculated hready ho (options_eq_ok_iff.mpr ⟨_, hd, rfl⟩)).eq_run]
    refine exists_conclude_error (.inr ⟨.noSpace, ?_⟩)
    rw [closingError?_writing, hh, Option.bind_some, Files.isFull_openAll? hf, if_pos hn]

end Reckoner.CommandLine
