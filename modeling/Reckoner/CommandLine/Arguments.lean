import Reckoner.Number.Reading
import Reckoner.Text.Quoted

/-!
# Command line arguments

The arguments of a run are switches and operands. A switch has a long name, which may be shortened
as long as one switch fits; its value follows an equals sign or is the next operand. What starts
with a dash is an operand if it reads as a negative number or has a space in it. After a divider all
arguments are operands. The first operand is the expression, and whatever has no meaning is refused
at the end. Help and version are given as soon as their switch is reached, and an error of a switch
counts from there on.
-/

namespace Reckoner.CommandLine

open Text

/-- A switch of the command line. -/
inductive Switch where
  /-- Show the help text. -/
  | help
  /-- Print the listing of the tokens. -/
  | tokens
  /-- Print the tree of the expression. -/
  | tree
  /-- Append to a calculation log. -/
  | log
  /-- Set the nesting limit. -/
  | maxDepth
  /-- Show the version. -/
  | version
  deriving DecidableEq

namespace Switch

/-- All switches. -/
def all : List Switch := [help, tokens, tree, log, maxDepth, version]

/-- The long name of a switch. -/
def name : Switch → String
  | help => "--help"
  | tokens => "--tokens"
  | tree => "--ast"
  | log => "--log"
  | maxDepth => "--max-depth"
  | version => "--version"

/-- The names of a switch in a message. -/
def label : Switch → String
  | help => "-h/--help"
  | s => s.name

/-- Whether a switch has a value. -/
def hasValue : Switch → Bool
  | log | maxDepth => true
  | _ => false

/-- The short name of the help switch. -/
def shortName : String := "-h"

/-- The switch of a full name. -/
def ofName? (name : String) : Option Switch :=
  if name == shortName then some help else all.find? fun s => s.name == name

/-- A switch is found by its name. -/
theorem ofName?_name (s : Switch) : ofName? s.name = some s := by
  cases s <;> decide

end Switch

/-- Why the arguments are refused. -/
inductive UsageError where
  /-- More than one switch fits a shortened name. -/
  | ambiguous (word : String) (fits : List Switch)
  /-- The value of a switch is missing. -/
  | missingValue (s : Switch)
  /-- A switch has a value that it cannot have. -/
  | needlessValue (s : Switch) (value : String)
  /-- The nesting limit is not a whole number. -/
  | notANumber (value : String)
  /-- The nesting limit is not positive. -/
  | notPositive (value : String)
  /-- Some arguments have no meaning. -/
  | unrecognized (words : List String)
  deriving DecidableEq

/-- What is said of a switch. -/
def ofSwitch (s : Switch) (text : String) : String := "argument " ++ s.label ++ ": " ++ text

/-- The wording of a usage error. -/
def UsageError.message : UsageError → String
  | ambiguous word fits =>
    "ambiguous option: " ++ word ++ " could match " ++
      String.intercalate ", " (fits.map Switch.name)
  | missingValue s => ofSwitch s "expected one argument"
  | needlessValue s value => ofSwitch s ("ignored explicit argument " ++ quoted value)
  | notANumber value => ofSwitch .maxDepth ("invalid _positive_int value: " ++ quoted value)
  | notPositive value => ofSwitch .maxDepth ("must be a positive integer, got " ++ value)
  | unrecognized words => "unrecognized arguments: " ++ String.intercalate " " words

/-- An argument by its form. -/
inductive Word where
  /-- An operand. -/
  | operand (text : String)
  /-- The divider in front of arguments that are all operands. -/
  | divider
  /-- A switch with the value that is attached to it. -/
  | switch (s : Switch) (value : Option String)
  /-- The short name of the help switch with letters behind it. -/
  | letters (text : String)
  /-- Something like a switch that is none. -/
  | unknown (text : String)
  deriving DecidableEq

namespace Word

/-- The divider as text. -/
def dividerText : String := "--"

/-- Whether a text is a negative number: a dash and digits, with a point before the last of them at
most. A line feed may follow. -/
def isNegative (cs : List Char) : Bool :=
  let body := if cs.getLast? == some '\n' then cs.dropLast else cs
  match body with
  | '-' :: rest =>
    match rest.dropWhile isDecimalDigit with
    | [] => !rest.isEmpty
    | '.' :: fraction => !fraction.isEmpty && fraction.all isDecimalDigit
    | _ => false
  | _ => false

/-- The text up to an equals sign and the text after it, if there is one. -/
def splitEquals (cs : List Char) : List Char × Option String :=
  let name := cs.takeWhile (· != '=')
  (name, (cs.drop name.length).tail?.map String.ofList)

/-- The switches that a long name fits, in full or shortened. -/
def fits (name : List Char) : List Switch :=
  Switch.all.filter fun s => name.isPrefixOf s.name.toList

/-- The form of an argument that is a dash and more, and no full name. -/
def ofDashed (text : String) : Except UsageError Word :=
  let cs := text.toList
  let (name, value) := splitEquals cs
  match value, Switch.ofName? (String.ofList name) with
  | some value, some s =>
    .ok (if String.ofList name == Switch.shortName then .letters value
      else .switch s (some value))
  | _, _ =>
    let other : Word :=
      if isNegative cs || cs.contains ' ' then .operand text else .unknown text
    match cs with
    | '-' :: '-' :: _ =>
      match fits name with
      | [] => .ok other
      | [s] => .ok (.switch s value)
      | several => .error (.ambiguous text several)
    | '-' :: 'h' :: rest => .ok (.letters (String.ofList rest))
    | _ => .ok other

/-- The form of an argument that is not the divider. -/
def ofText (text : String) : Except UsageError Word :=
  if text.toList.head? != some '-' || text == "-" then .ok (.operand text)
  else match Switch.ofName? text with
    | some s => .ok (.switch s none)
    | none => ofDashed text

/-- The forms of all arguments. -/
def ofArguments : List String → Except UsageError (List Word)
  | [] => .ok []
  | text :: rest =>
    if text == dividerText then .ok (.divider :: rest.map .operand)
    else match ofText text with
      | .error e => .error e
      | .ok w => (ofArguments rest).map (w :: ·)

/-- Behind a divider every argument is an operand. -/
theorem ofArguments_divider (rest : List String) :
    ofArguments (dividerText :: rest) = .ok (.divider :: rest.map .operand) := by
  simp [ofArguments]

end Word

/-- What the arguments of a calculation say. -/
structure Arguments where
  /-- The expression, if it is given. -/
  expression : Option String
  /-- Whether the listing of the tokens is printed. -/
  showTokens : Bool
  /-- Whether the tree of the expression is printed. -/
  showTree : Bool
  /-- The file of the calculation log, if it is given; a divider in its place leaves none. -/
  log : Option String
  /-- The nesting limit; a divider in its place leaves none. -/
  maxDepth : Option Int
  deriving DecidableEq

/-- What is asked for. -/
inductive Request where
  /-- The help text. -/
  | help
  /-- The version. -/
  | version
  /-- A calculation. -/
  | calculate (a : Arguments)
  deriving DecidableEq

/-- The state of reading arguments. -/
structure Reading where
  /-- What was said so far. -/
  arguments : Arguments
  /-- Whether the place of the expression is taken. -/
  isPlaceTaken : Bool
  /-- The arguments without a meaning, the last of them first. -/
  refused : List String

namespace Reading

/-- Nothing was said, and the nesting limit is the one of the settings. -/
def start (maxDepth : Int) : Reading := ⟨⟨none, false, false, none, some maxDepth⟩, false, []⟩

/-- Take an operand as the expression, or nothing for it. -/
def take (r : Reading) (expression : Option String) : Reading :=
  { r with arguments := { r.arguments with expression := expression }, isPlaceTaken := true }

/-- Refuse an argument. -/
def refuse (r : Reading) (text : String) : Reading := { r with refused := text :: r.refused }

/-- What was asked for, if nothing was refused. -/
def finish (r : Reading) : Except UsageError Request :=
  if r.refused.isEmpty then .ok (.calculate r.arguments)
  else .error (.unrecognized r.refused.reverse)

end Reading

/-- The greatest number of digits of a whole number. -/
def digitLimit : Nat := 4300

/-- Read the nesting limit. -/
def readDepth (value : String) : Except UsageError Int :=
  if digitLimit < value.toList.countP isDecimalDigit then .error (.notANumber value)
  else match readFreeInt? value with
    | none => .error (.notANumber value)
    | some n => if 0 < n then .ok n else .error (.notPositive value)

/-- Set a switch that has a value; a divider in place of the value leaves none. -/
def setValue (a : Arguments) (s : Switch) (value : String) : Except UsageError Arguments :=
  let value? := if value == Word.dividerText then none else some value
  match s, value? with
  | .log, _ => .ok { a with log := value? }
  | .maxDepth, none => .ok { a with maxDepth := none }
  | .maxDepth, some value => (readDepth value).map fun n => { a with maxDepth := some n }
  | _, _ => .error (.needlessValue s value)

/-- What the letters behind the short name of the help switch ask for: they may repeat the name, and
nothing else. -/
def readLetters (text : String) : Except UsageError Request :=
  let rest := text.toList.dropWhile (· == 'h')
  if !text.isEmpty && rest.isEmpty then .ok .help
  else .error (.needlessValue .help (String.ofList rest))

/-- Read the arguments by their forms. -/
def readWords : Reading → List Word → Except UsageError Request
  | r, [] => r.finish
  | r, .unknown text :: ws => readWords (r.refuse text) ws
  | _, .letters text :: _ => readLetters text
  | r, .operand text :: ws =>
    if r.isPlaceTaken then readWords (r.refuse text) ws
    else match ws with
      | .divider :: ws => readWords (r.take (some text)) ws
      | ws => readWords (r.take (some text)) ws
  | r, .divider :: ws =>
    if r.isPlaceTaken then readWords (r.refuse Word.dividerText) ws
    else match ws with
      | .operand text :: ws => readWords (r.take (some text)) ws
      | ws => readWords (r.take none) ws
  | r, .switch s value :: ws =>
    if s.hasValue then
      match value, ws with
      | some value, ws =>
        match setValue r.arguments s value with
        | .error e => .error e
        | .ok a => readWords { r with arguments := a } ws
      | none, .operand value :: ws =>
        match setValue r.arguments s value with
        | .error e => .error e
        | .ok a => readWords { r with arguments := a } ws
      | none, _ => .error (.missingValue s)
    else match value, s with
      | some value, s => .error (.needlessValue s value)
      | none, .help => .ok .help
      | none, .version => .ok .version
      | none, .tokens =>
        readWords { r with arguments := { r.arguments with showTokens := true } } ws
      | none, _ => readWords { r with arguments := { r.arguments with showTree := true } } ws

/-- What the arguments ask for. -/
def Request.ofArguments (maxDepth : Int) (args : List String) : Except UsageError Request :=
  match Word.ofArguments args with
  | .error e => .error e
  | .ok ws => readWords (.start maxDepth) ws

/-- An operand behind the divider is the expression. -/
theorem Request.ofArguments_divider (maxDepth : Int) (expression : String) :
    Request.ofArguments maxDepth [Word.dividerText, expression] =
      .ok (.calculate ⟨some expression, false, false, none, some maxDepth⟩) := by
  rw [Request.ofArguments, Word.ofArguments_divider]
  rfl

end Reckoner.CommandLine
