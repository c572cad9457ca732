/-!
# Settings

The settings of a run, with their names and defaults. In the environment the names of the settings
carry a common start.
-/

namespace Reckoner

/-- The settings of a run. -/
structure Settings where
  /-- The name of the program. -/
  appName : String
  /-- The version of the program. -/
  appVersion : String
  /-- The name of the least level of records that are written. -/
  logLevel : String
  /-- The name of the form in which records are written. -/
  logFormat : String
  /-- The file to which records are written besides the console. -/
  logFile : Option String
  /-- The greatest number of characters that are read from the input. -/
  maxInputSize : Int
  /-- The nesting limit of expressions. -/
  maxNestingDepth : Int
  /-- The file of the calculation log. -/
  historyFile : Option String
  deriving DecidableEq

namespace Settings

/-- The settings where no source has any. -/
def default : Settings :=
  ⟨"exprcalc", "0.1.0", "WARNING", "text", none, 4096, 100, none⟩

/-- The names of the settings, in the order of their declaration. -/
def names : List String :=
  ["APP_NAME", "APP_VERSION", "LOG_LEVEL", "LOG_FORMAT", "LOG_FILE", "MAX_INPUT_SIZE",
    "MAX_NESTING_DEPTH", "HISTORY_FILE"]

/-- The start of the names of the settings in the environment. -/
def environmentStart : String := "EXPRCALC_"

end Settings

end Reckoner
