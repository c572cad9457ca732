import Reckoner.Log.Loggers

/-!
# Journals

A journal is what a run writes besides its result: its loggers together with the files and the
console. Everything is written in order, and all records of a journal have one time. The console is
taken to be open, to take every text, and to be apart from the standard output and from all files.
-/

namespace Reckoner

/-- The loggers of a run, and what they write to. -/
structure Journal where
  /-- The loggers. -/
  loggers : Loggers
  /-- The files and the console. -/
  outlets : Outlets
  /-- The time of the records. -/
  time : Moment

namespace Journal

/-- A journal in which nothing is written yet. -/
def ofFiles (time : Moment) (files : Files) : Journal := ⟨.initial, ⟨files, ""⟩, time⟩

/-- The text on the console. -/
def console (j : Journal) : String := j.outlets.console

/-- The files. -/
def files (j : Journal) : Files := j.outlets.files

/-- Put other files in place. -/
def withFiles (j : Journal) (files : Files) : Journal :=
  { j with outlets := { j.outlets with files := files } }

/-- Write a text to the console. -/
def print (j : Journal) (text : String) : Journal := { j with outlets := j.outlets.print text }

/-- Log a record. -/
def log (j : Journal) (r : Record) : Journal :=
  { j with outlets := j.loggers.log j.time r j.outlets }

/-- Set up the loggers as the settings say. -/
def setup (j : Journal) (s : Settings) : Journal × Option SetupError :=
  match j.loggers.setup s j.files with
  | (files, .error e) => (j.withFiles files, some e)
  | (files, .ok loggers) => ({ j.withFiles files with loggers := loggers }, none)

/-- Open the calculation log. -/
def openHistory (j : Journal) (path : Path) : Journal × Option FileError :=
  match j.loggers.openHistory path j.files with
  | (files, loggers, e) => ({ j.withFiles files with loggers := loggers }, e)

/-- Close the calculation log. -/
def closeHistory (j : Journal) : Journal × Option FileError :=
  match j.loggers.closeHistory j.files with
  | (loggers, e) => ({ j with loggers := loggers }, e)

/-- A record below the level of its logger leaves no trace. -/
theorem log_eq_self {j : Journal} {r : Record}
    (h : j.loggers.isEnabled r.logger r.level = false) : j.log r = j := by
  simp [log, Loggers.log, h]

end Journal

end Reckoner
