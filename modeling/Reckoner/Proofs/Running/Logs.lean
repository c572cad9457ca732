import Reckoner.Proofs.Running.Course

/-!
# The logs of a run

A run writes its records to the console and, if the settings say so, to a file, and its calculation
log to another file. Both files are opened before the run comes to a calculation: first the one of
the records, then the calculation log. What the journal of a run is at that point depends on nothing
but the report on its settings, the settings, the level, the path of the calculation log and the
files.
-/

namespace Reckoner

/-- Open the files of some paths one after the other, if all of them can be opened. -/
def Files.openAll? (fs : Files) : List Path → Option Files
  | [] => some fs
  | p :: ps =>
    match fs.openLog p with
    | (fs, none) => openAll? fs ps
    | (_, some _) => none

/-- Some files are opened, and then the others. -/
theorem Files.openAll?_append (fs : Files) (ps qs : List Path) :
    fs.openAll? (ps ++ qs) = (fs.openAll? ps).bind (·.openAll? qs) := by
  induction ps generalizing fs with
  | nil => rfl
  | cons p ps ih =>
    simp only [List.cons_append, openAll?]
    rcases fs.openLog p with ⟨fs', _ | e⟩
    · exact ih fs'
    · rfl

namespace CommandLine

/-- The path of the calculation log, if there is one. -/
def calculationPath? (a : Arguments) (s : Settings) : Option Path :=
  (historyPath? a s).map Prod.fst

/-- The paths of the files that a run opens to write to them, in the order in which it opens
them. -/
def logPaths (a : Arguments) (s : Settings) : List Path :=
  (logPath? s).toList ++ (calculationPath? a s).toList

/-- The handlers of the root, as the settings say. -/
def rootHandlers (s : Settings) (level : Int) : List Handler :=
  let format := if s.logFormat == "json" then LineFormat.structured else .plain
  ⟨.console, format, level⟩ :: (logPath? s).toList.map fun p => ⟨.file p.place, format, level⟩

/-- The journal of a run whose loggers are set up and whose calculation log, if it has one, is
open. -/
def writing (time : Moment) (report : String) (s : Settings) (level : Int) (path? : Option Path)
    (fs : Files) : Journal :=
  ⟨⟨level, rootHandlers s level, path?.isSome,
    path?.toList.map fun p => ⟨.file p.place, .history, 0⟩⟩, ⟨fs, report⟩, time⟩

variable {host : Host} {time : Moment} {inv : Invocation} {files fs : Files} {a : Arguments}
  {s : Settings} {level : Int} {report : String}

/-- Opening the file of the records, if there is one. -/
private theorem setup_loaded (host : Host) (time : Moment) (inv : Invocation) (files : Files)
    (s : Settings) :
    (loaded host time inv files).setup s =
      let report := (host.load inv.environment files).report
      match levelOfSetting s.logLevel with
      | .error e => (loaded host time inv files, some (.level e))
      | .ok level =>
        match logPath? s with
        | none => (writing time report s level none files, none)
        | some path =>
          match files.openLog path with
          | (fs, some e) => ((loaded host time inv files).withFiles fs, some (.file e))
          | (fs, none) => (writing time report s level none fs, none) := by
  simp only [Journal.setup, Loggers.setup, writing, rootHandlers, logPath?]
  cases levelOfSetting s.logLevel with
  | error e => rfl
  | ok level =>
    rcases s.logFile with _ | file
    · rfl
    · by_cases hfile : file = ""
      · subst hfile
        rfl
      · simp only [loaded, Journal.files]
        rcases files.openLog (Path.ofText file) with ⟨fs, _ | e⟩ <;> rfl

/-- The loggers can be set up if the settings name a level and the file of the records can be
opened. -/
theorem setup_loaded_iff {j : Journal} : (loaded host time inv files).setup s = (j, none) ↔
    ∃ level fs, levelOfSetting s.logLevel = .ok level ∧
      files.openAll? (logPath? s).toList = some fs ∧
      j = writing time (host.load inv.environment files).report s level none fs := by
  rw [setup_loaded]
  cases levelOfSetting s.logLevel with
  | error e => simp
  | ok level =>
    cases logPath? s with
    | none => simp [Files.openAll?, eq_comm]
    | some path =>
      rcases ho : files.openLog path with ⟨fs, _ | e⟩ <;> simp [Files.openAll?, ho, eq_comm]

/-- Opening the calculation log keeps the handlers of the root; a calculation log that cannot be
opened has no handler. -/
theorem openHistory_writing (path : Path) :
    (writing time report s level none fs).openHistory path =
      match fs.openLog path with
      | (fs', some e) => ((writing time report s level (some path) fs').closeHistory.1, some e)
      | (fs', none) => (writing time report s level (some path) fs', none) := by
  simp only [Journal.openHistory, Loggers.openHistory, writing, Journal.files]
  rcases fs.openLog path with ⟨fs', _ | e⟩ <;> rfl

/-- With the loggers set up, the calculation log has only to be opened. -/
theorem opened_writing_iff {isOpen : Bool} {j : Journal} :
    Opened a s (writing time report s level none fs) isOpen j ↔
      ∃ fs', fs.openAll? (calculationPath? a s).toList = some fs' ∧
        isOpen = (calculationPath? a s).isSome ∧
        j = writing time report s level (calculationPath? a s) fs' := by
  simp only [calculationPath?]
  rcases hh : historyPath? a s with _ | ⟨path, text⟩
  · constructor
    · intro h
      cases h with
      | without => exact ⟨fs, rfl, rfl, rfl⟩
      | log h => simp [hh] at h
    · rintro ⟨fs', hf, rfl, rfl⟩
      obtain rfl : fs = fs' := by simpa [Files.openAll?] using hf
      exact .without hh
  · constructor
    · intro h
      cases h with
      | without h => simp [hh] at h
      | log h ho =>
        obtain rfl : path = _ := congrArg Prod.fst (Option.some.inj (hh.symm.trans h))
        rw [openHistory_writing] at ho
        rcases hl : fs.openLog path with ⟨fs', _ | e⟩
        · obtain rfl : writing time report s level (some path) fs' = j := by simpa [hl] using ho
          exact ⟨fs', by simp [Files.openAll?, hl], rfl, rfl⟩
        · simp [hl] at ho
    · rintro ⟨fs', hf, rfl, rfl⟩
      refine .log hh ?_
      rw [openHistory_writing]
      rcases hl : fs.openLog path with ⟨fs'', _ | e⟩
      · obtain rfl : fs'' = fs' := by simpa [Files.openAll?, hl] using hf
        rfl
      · simp [Files.openAll?, hl] at hf

/-- A run can write to its logs if the settings name a level and the files can be opened. -/
theorem opened_iff {isOpen : Bool} {j : Journal} :
    (∃ i, (loaded host time inv files).setup s = (i, none) ∧ Opened a s i isOpen j) ↔
      ∃ level fs, levelOfSetting s.logLevel = .ok level ∧
        files.openAll? (logPaths a s) = some fs ∧ isOpen = (calculationPath? a s).isSome ∧
        j = writing time (host.load inv.environment files).report s level
          (calculationPath? a s) fs := by
  simp only [setup_loaded_iff, logPaths, Files.openAll?_append, Option.bind_eq_some_iff]
  constructor
  · rintro ⟨_, ⟨level, fs, hl, hf, rfl⟩, ho⟩
    obtain ⟨fs', hf', hisOpen, hj⟩ := opened_writing_iff.mp ho
    exact ⟨level, fs', hl, ⟨fs, hf, hf'⟩, hisOpen, hj⟩
  · rintro ⟨level, fs', hl, ⟨fs, hf, hf'⟩, hisOpen, hj⟩
    exact ⟨_, ⟨level, fs, hl, hf, rfl⟩, opened_writing_iff.mpr ⟨fs', hf', hisOpen, hj⟩⟩

end CommandLine

end Reckoner
