import Reckoner.Files
import Reckoner.Log.Record
import Reckoner.Settings

/-!
# Loggers

Handlers write the records of loggers to the console or to files. There are two groups of handlers:
those of the root, which serve every logger by default, and those of the calculation log. Once the
calculation log has been opened, its loggers stay apart from the root, also after it is closed. A
severe record that finds no handler is written to the console as its bare message.
-/

namespace Reckoner

/-- Where a handler writes. -/
inductive Sink where
  /-- The console. -/
  | console
  /-- The file at a place. -/
  | file (place : List String)
  deriving DecidableEq

/-- A writer of records. -/
structure Handler where
  /-- Where it writes. -/
  sink : Sink
  /-- How it writes. -/
  format : LineFormat
  /-- The least level of the records that it writes. -/
  level : Int
  deriving DecidableEq

/-- The files, and the text on the console. -/
structure Outlets where
  /-- The files. -/
  files : Files
  /-- What was written to the console. -/
  console : String

namespace Outlets

/-- Write a text to the console. -/
def print (o : Outlets) (text : String) : Outlets := { o with console := o.console ++ text }

/-- Write a text to a sink. -/
def write (o : Outlets) : Sink → String → Outlets
  | .console, text => o.print text
  | .file place, text => { o with files := o.files.append place text }

end Outlets

/-- Write a record that is severe enough; a record without a message is dropped. -/
def Handler.emit (time : Moment) (r : Record) (o : Outlets) (h : Handler) : Outlets :=
  if r.level < h.level then o
  else match h.format.render time r with
    | .ok line => o.write h.sink (line ++ "\n")
    | .error _ => o

/-- A handler of a file leaves the console alone. -/
theorem Handler.console_emit {time : Moment} {r : Record} {o : Outlets} {h : Handler}
    {place : List String} (hs : h.sink = .file place) :
    (h.emit time r o).console = o.console := by
  unfold emit
  split
  · rfl
  · split
    · rw [hs]
      rfl
    · rfl

/-- Why loggers cannot be set up. -/
inductive SetupError where
  /-- The name of the level stands for something else. -/
  | level (e : LevelError)
  /-- The file cannot be opened. -/
  | file (e : FileError)
  deriving DecidableEq

/-- The wording of a setup error. -/
def SetupError.message : SetupError → String
  | level e => e.message
  | file e => e.message

/-- The handlers with the level of the root. -/
structure Loggers where
  /-- The level of the root. -/
  rootLevel : Int
  /-- The handlers of the root. -/
  rootHandlers : List Handler
  /-- Whether the calculation log has ever been opened. -/
  isHistoryApart : Bool
  /-- The handlers of the calculation log. -/
  historyHandlers : List Handler

namespace Loggers

/-- No handlers, and the level of warnings. -/
def initial : Loggers := ⟨warningLevel, [], false, []⟩

/-- The logger of the calculation log. -/
def historyName : String := "exprcalc.history"

/-- Whether a logger is the one of the calculation log or below it. -/
def isHistoryName (name : String) : Bool :=
  name == historyName || (historyName ++ ".").isPrefixOf name

/-- Whether the handlers of the calculation log serve a logger. -/
def isApart (ls : Loggers) (name : String) : Bool := ls.isHistoryApart && isHistoryName name

/-- The least level of the records that a logger takes. -/
def levelOf (ls : Loggers) (name : String) : Int :=
  if ls.isApart name then infoLevel else ls.rootLevel

/-- Whether a logger takes records of a level, which has to be positive. -/
def isEnabled (ls : Loggers) (name : String) (level : Int) : Bool :=
  0 < level && ls.levelOf name ≤ level

/-- The handlers that serve a logger. -/
def handlersOf (ls : Loggers) (name : String) : List Handler :=
  if ls.isApart name then ls.historyHandlers else ls.rootHandlers

/-- Write a record as its bare message, if it is severe enough. -/
def lastResort (r : Record) (o : Outlets) : Outlets :=
  if r.level < warningLevel then o
  else match r.message with
    | .ok message => o.print (r.withException message ++ "\n")
    | .error _ => o

/-- Write a record by the handlers of its logger. -/
def emit (ls : Loggers) (time : Moment) (r : Record) (o : Outlets) : Outlets :=
  match ls.handlersOf r.logger with
  | [] => lastResort r o
  | hs => hs.foldl (Handler.emit time r) o

/-- Write a record if its logger takes it. -/
def log (ls : Loggers) (time : Moment) (r : Record) (o : Outlets) : Outlets :=
  if ls.isEnabled r.logger r.level then ls.emit time r o else o

/-- Replace the handlers and the level of the root as the settings say: records go to the console,
and to a file if one is named. What was made on the way to a file that cannot be opened stays. -/
def setup (ls : Loggers) (s : Settings) (fs : Files) : Files × Except SetupError Loggers :=
  let format := if s.logFormat == "json" then LineFormat.structured else .plain
  match levelOfSetting s.logLevel with
  | .error e => (fs, .error (.level e))
  | .ok level =>
    let replaced (more : List Handler) : Loggers :=
      { ls with rootLevel := level, rootHandlers := ⟨.console, format, level⟩ :: more }
    match s.logFile with
    | none | some "" => (fs, .ok (replaced []))
    | some file =>
      let path := Path.ofText file
      match fs.openLog path with
      | (fs, some e) => (fs, .error (.file e))
      | (fs, none) => (fs, .ok (replaced [⟨.file path.place, format, level⟩]))

/-- Open the calculation log. A handler of the same file is kept, and any other is removed first;
what was made on the way to a file that cannot be opened stays. -/
def openHistory (ls : Loggers) (path : Path) (fs : Files) : Files × Loggers × Option FileError :=
  let sink := Sink.file path.place
  match ls.historyHandlers.find? fun h => h.sink == sink with
  | some h => (fs, { ls with isHistoryApart := true, historyHandlers := [h] }, none)
  | none =>
    match fs.openLog path with
    | (fs, some e) => (fs, { ls with isHistoryApart := true, historyHandlers := [] }, some e)
    | (fs, none) =>
      (fs, { ls with isHistoryApart := true, historyHandlers := [⟨sink, .history, 0⟩] }, none)

/-- Close the calculation log. If its file has no room for what was written to it, that is noticed
here. -/
def closeHistory (ls : Loggers) (fs : Files) : Loggers × Option FileError :=
  let isLost (h : Handler) : Bool :=
    match h.sink with
    | .file place => fs.isFull place
    | .console => false
  ({ ls with historyHandlers := [] },
    if ls.historyHandlers.any isLost then some .noSpace else none)

end Loggers

end Reckoner
