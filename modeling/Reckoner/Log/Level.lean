import Reckoner.Text.Quoted

/-!
# Log levels

A level is a whole number; five of them and zero have names. The level of a setting is found by its
name in upper case, and a setting that names nothing stands for the level of warnings. Two names of
the same kind stand for something else, and no level can be had from them.
-/

namespace Reckoner

/-- The level of debugging notes. -/
def debugLevel : Int := 10

/-- The level of information. -/
def infoLevel : Int := 20

/-- The level of warnings. -/
def warningLevel : Int := 30

/-- The name that a level has in a record. -/
def levelName (level : Int) : String :=
  if level = 50 then "CRITICAL"
  else if level = 40 then "ERROR"
  else if level = 30 then "WARNING"
  else if level = 20 then "INFO"
  else if level = 10 then "DEBUG"
  else if level = 0 then "NOTSET"
  else "Level " ++ toString level

/-- The levels that a setting can name. -/
def namedLevels : List (String × Int) :=
  [("CRITICAL", 50), ("FATAL", 50), ("ERROR", 40), ("WARNING", 30), ("WARN", 30), ("INFO", 20),
    ("DEBUG", 10), ("NOTSET", 0)]

/-- What a name stands for that is no level. -/
inductive LevelError where
  /-- The layout of a line. -/
  | layout
  /-- The table of the styles of layouts. -/
  | styles
  deriving DecidableEq

/-- The layout of a line. -/
def layoutText : String := "%(levelname)s:%(name)s:%(message)s"

/-- The wording of a level error. -/
def LevelError.message : LevelError → String
  | layout => "Unknown level: " ++ Text.quoted layoutText
  | styles =>
    "Level not an integer or a valid string: \x7b'%': (<class 'logging.PercentStyle'>, " ++
      Text.quoted layoutText ++ "), '\x7b': (<class 'logging.StrFormatStyle'>, " ++
      "'\x7blevelname\x7d:\x7bname\x7d:\x7bmessage\x7d'), '$': " ++
      "(<class 'logging.StringTemplateStyle'>, " ++
      "'$\x7blevelname\x7d:$\x7bname\x7d:$\x7bmessage\x7d')\x7d"

/-- The names that a setting can give without naming a level. -/
def otherNames : List (String × LevelError) := [("BASIC_FORMAT", .layout), ("_STYLES", .styles)]

/-- The upper case of a character as far as it can be part of one of the names: four characters
outside ASCII have an ASCII upper case of letters that the names have. -/
def upperChars (c : Char) : List Char :=
  if c == 'ı' then ['I']
  else if c == 'ſ' then ['S']
  else if c == 'ﬅ' || c == 'ﬆ' then ['S', 'T']
  else [c.toUpper]

/-- The level that a setting names; a setting that names nothing stands for the level of
warnings. -/
def levelOfSetting (setting : String) : Except LevelError Int :=
  let name := String.ofList (setting.toList.flatMap upperChars)
  match otherNames.lookup name, namedLevels.lookup name with
  | some e, _ => .error e
  | none, some level => .ok level
  | none, none => .ok warningLevel

end Reckoner
