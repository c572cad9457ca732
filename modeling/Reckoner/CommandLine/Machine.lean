import Reckoner.CommandLine.Run
import Reckoner.Settings.EnvFile
import Reckoner.Settings.Fields

/-!
# The machine as a host

On the machine a setting is taken from the first of its sources that has it: named fields, the
environment, the environment file in the working directory, the default. A statement of that file
that cannot be read is reported.
-/

namespace Reckoner

namespace Settings

/-- The file of the environment that is read in the working directory. -/
def environmentFile : String := ".env"

/-- The fields that named texts give: those whose names carry the common start. -/
def fieldsOfNames (values : List (String × Option String)) : List (String × Scalar) :=
  names.filterMap fun name =>
    ((values.reverse.lookup (environmentStart ++ name)).join).map fun v => (name, .text v)

/-- The settings from all sources; of two sources of a setting the later in the list counts. -/
def ofSources (fields : List (String × Scalar)) (environment : List (String × String))
    (file : EnvFile) : Except Invalid Settings :=
  let environment := environment.map fun v => (v.1, some v.2)
  ofFields (fieldsOfNames (EnvFile.expandAll environment file.settings) ++
    fieldsOfNames environment ++ fields)

end Settings

/-- The report on a statement that cannot be read. -/
def unreadableRecord (line : Nat) : Record where
  logger := "dotenv.main"
  level := warningLevel
  template := "python-dotenv could not parse statement starting at line %s"
  args := [.int line]
  moduleName := "main"
  functionName := "with_warn_for_invalid_lines"
  line := 0
  extra := []
  exception := none

/-- The environment file in the working directory; without one it is empty. -/
def Files.environmentFile (fs : Files) : EnvFile :=
  match fs.read? [Settings.environmentFile] with
  | some text => EnvFile.ofText text
  | none => ⟨[], []⟩

/-- Load the settings from named fields, the environment and the environment file. -/
def Journal.loadSettings (j : Journal) (fields : List (String × Scalar))
    (environment : List (String × String)) : Journal × Except Invalid Settings :=
  let file := j.files.environmentFile
  (file.unreadable.foldl (fun j line => j.log (unreadableRecord line)) j,
    Settings.ofSources fields environment file)

namespace CommandLine

/-- The machine as a host: it has room for every run, and before the loggers are set up there is no
handler for a report, which then goes to the console as its bare message. -/
def Host.machine : Host :=
  .ample .machine fun environment files =>
    match (Journal.ofFiles ⟨"", ""⟩ files).loadSettings [] environment with
    | (j, settings) => ⟨j.console, settings⟩

-- Any whole number is a valid setting, also where a calculation needs a positive one.
example : (Host.machine.load [("EXPRCALC_MAX_NESTING_DEPTH", "0")] .empty).settings.toOption.map
    Settings.maxNestingDepth = some 0 := by decide +kernel

-- A statement needs a name.
example : (Host.machine.load [] ⟨[], [([".env"], "=\n")], []⟩).report =
    "python-dotenv could not parse statement starting at line 1\n" := by decide +kernel

end CommandLine

end Reckoner
