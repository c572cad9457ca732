import Reckoner.CommandLine.Host
import Reckoner.CommandLine.Input
import Reckoner.CommandLine.Usage
import Reckoner.Log.Journal

/-!
# Runs of the program

A run loads the settings, reads the arguments, sets up the loggers, finds the expression, opens the
calculation log and calculates. The result is printed on the standard output, and everything else
goes to the journal. A run ends with status zero if there is a value, with one if there is a fault,
and with two if the call is at fault. What is not part of the program is up to the host.

The standard output is taken to take every text, as the console is, and there is taken to be memory
for all texts but the input.
-/

namespace Reckoner.CommandLine

/-- The standard input of a run. -/
inductive StandardInput where
  /-- There is none. -/
  | closed
  /-- A terminal, from which no expression is read. -/
  | terminal
  /-- A stream with its content. -/
  | stream (content : String)
  deriving DecidableEq

/-- A call of the program. -/
structure Invocation where
  /-- The arguments. -/
  args : List String
  /-- The environment. -/
  environment : List (String × String)
  /-- The standard input. -/
  input : StandardInput

/-- Why a run ends without a status. -/
inductive Abort where
  /-- The settings or the options are not valid. -/
  | invalid (i : Invalid)
  /-- The version does not fit as a template. -/
  | version (m : Template.Misfit)
  /-- The loggers cannot be set up. -/
  | setup (e : SetupError)
  /-- The input cannot be read. -/
  | input (e : InputError)
  /-- The calculation log has a path that no file can have, or cannot be closed. -/
  | log (e : FileError)
  /-- The stack ran out in the calculation. -/
  | stackEnd
  /-- The calculation stopped without a fault of the source. -/
  | stopped (s : Stop)
  deriving DecidableEq

/-- The wording of an abort. -/
def Abort.message : Abort → String
  | invalid i => i.message
  | version m => m.message
  | setup e => e.message
  | input e => e.message
  | log e => e.message
  | stackEnd => "maximum recursion depth exceeded"
  | stopped s => s.message

/-- How a run ended. -/
structure Outcome where
  /-- The status, or why there is none. -/
  ending : Except Abort Nat
  /-- The text on the standard output. -/
  output : String
  /-- Everything else that was written. -/
  journal : Journal

/-- Where in the program a record is written. -/
structure Origin where
  /-- The name of the logger. -/
  logger : String
  /-- The module. -/
  moduleName : String
  /-- The function. -/
  functionName : String

namespace Origin

/-- The scanner. -/
def scanner : Origin := ⟨"exprcalc.parser.tokenizer", "tokenizer", "tokenize"⟩

/-- The parser. -/
def parser : Origin := ⟨"exprcalc.parser.parser", "parser", "parse"⟩

/-- The calculation as a whole. -/
def calculator : Origin := ⟨"exprcalc.calculator", "calculator", "calculate"⟩

/-- The run. -/
def run : Origin := ⟨"exprcalc.cli", "cli", "main"⟩

/-- The run when it writes to the calculation log. -/
def history : Origin := ⟨Loggers.historyName, "cli", "main"⟩

/-- A record of an origin. -/
def record (o : Origin) (level : Int) (template : String) (args : List Scalar)
    (extra : List (String × Scalar)) : Record :=
  ⟨o.logger, level, template, args, o.moduleName, o.functionName, 0, extra, none⟩

end Origin

/-- A record of a run itself, under the expression as permanent context. -/
def runRecord (expression : String) (level : Int) (template : String) (args : List Scalar)
    (extra : List (String × Scalar)) : Record :=
  Origin.run.record level template args (withContext [("expression", .text expression)] extra)

/-- A record of the calculation log. -/
def historyRecord (message : String) (extra : List (String × Scalar)) : Record :=
  Origin.history.record infoLevel message [] extra

/-- The record of a stage of a calculation. -/
def stageRecord (o : Origin) (template : String) (args : List Scalar) : Record :=
  o.record debugLevel template args []

/-- Put what a calculation gives off into the journal. -/
def note (j : Journal) : Emission → Journal
  | .printed text => j.print (text ++ "\n")
  | .scanned tokens => j.log (stageRecord .scanner "Scanned %d tokens" [.int tokens])
  | .parsed tokens nodes =>
    j.log (stageRecord .parser "Parsed %d tokens into %d nodes" [.int tokens, .int nodes])
  | .evaluated source value =>
    j.log (stageRecord .calculator "Evaluated %r to %s" [.text source, .text value.shown])

/-- Log to the calculation log if there is one. -/
def logHistory (isOpen : Bool) (j : Journal) (r : Record) : Journal := if isOpen then j.log r else j

/-- Close the calculation log, if it is open, and end a run with a status. If the log cannot be
closed, there is no status and nothing is put out. -/
def finish (isOpen : Bool) (status : Nat) (output : String) (j : Journal) : Outcome :=
  if isOpen then
    match j.closeHistory with
    | (j, none) => ⟨.ok status, output, j⟩
    | (j, some e) => ⟨.error (.log e), "", j⟩
  else ⟨.ok status, output, j⟩

/-- Close the calculation log, if it is open, and end a run without a status. -/
def quit (isOpen : Bool) (a : Abort) (j : Journal) : Outcome :=
  ⟨.error a, "", if isOpen then j.closeHistory.1 else j⟩

/-- End a run with a value. -/
def succeed (isOpen : Bool) (expression : String) (v : Value) (j : Journal) : Outcome :=
  let j := j.log (runRecord expression debugLevel "Calculation succeeded" []
    [("type", .text v.kindName)])
  let j := logHistory isOpen j (historyRecord "calculation"
    [("expression", .text expression), ("result", v.toFiniteScalar), ("type", .text v.kindName)])
  finish isOpen 0 (v.text ++ "\n") j

/-- End a run with a fault. -/
def fail (isOpen : Bool) (expression : String) (f : Fault) (j : Journal) : Outcome :=
  let kind := Scalar.text f.cause.kindName
  let j := j.log (runRecord expression infoLevel "Calculation failed: %s" [kind]
    [("kind", kind), ("start", .int f.span.start), ("end", .int f.span.stop)])
  let j := logHistory isOpen j (historyRecord "calculation failed"
    [("expression", .text expression), ("error", .text f.message), ("kind", kind)])
  finish isOpen 1 "" (j.print (f.diagnostic expression ++ "\n"))

/-- Calculate an expression and end the run. -/
def conclude (host : Host) (options : Options) (isOpen : Bool) (expression : String)
    (j : Journal) : Outcome :=
  let c := calculate host.ops options expression
  match host.stackEnd? options expression with
  | some n => quit isOpen .stackEnd ((c.emissions.take n).foldl note j)
  | none =>
    let j := c.emissions.foldl note j
    match c.result with
    | .ok v => succeed isOpen expression v j
    | .error (.fault f) => fail isOpen expression f j
    | .error s => quit isOpen (.stopped s) j

/-- End a run that was called wrongly. -/
def refuse (text : String) (j : Journal) : Outcome := ⟨.ok 2, "", j.print text⟩

/-- The options that arguments give, if the host finds the nesting limit valid. -/
def Arguments.options (a : Arguments) (host : Host) : Except Invalid Options :=
  (host.checkLimit a.maxDepth).map fun limit => ⟨a.showTokens, a.showTree, limit⟩

/-- The path of the calculation log with its text in a message: the one that the arguments give, or
else the one of the settings. -/
def historyPath? (a : Arguments) (s : Settings) : Option (Path × String) :=
  match a.log, s.historyFile with
  | some log, _ => some (Path.ofText log, (Path.ofText log).text)
  | none, none | none, some "" => none
  | none, some file => some (Path.ofText file, file)

/-- Open the calculation log, calculate an expression and end the run. -/
def calculateLogged (host : Host) (a : Arguments) (s : Settings) (expression : String)
    (j : Journal) : Outcome :=
  let go (isOpen : Bool) (j : Journal) : Outcome :=
    match a.options host with
    | .error i => ⟨.error (.invalid i), "", j⟩
    | .ok options => conclude host options isOpen expression j
  match historyPath? a s with
  | none => go false j
  | some (path, text) =>
    match j.openHistory path with
    | (j, none) => go true j
    | (j, some .nullCharacter) => ⟨.error (.log .nullCharacter), "", j⟩
    | (j, some e) => refuse ("Error: cannot open log file " ++ text ++ ": " ++ e.message ++ "\n") j

/-- The expression of a run, or why there is none: an error of the input, or no input at all. -/
def findExpression (host : Host) (a : Arguments) (limit : Int) (input : StandardInput) :
    Except (Option InputError) String :=
  match a.expression, input with
  | some expression, _ => .ok expression
  | none, .stream content =>
    if fitsInteger (limit + 1) && !host.canRead (limit + 1) then .error (some .unreadable)
    else (readExpression limit content.toList).1.mapError some
  | none, _ => .error none

/-- Find the expression and calculate it. -/
def calculateFound (host : Host) (a : Arguments) (s : Settings) (input : StandardInput)
    (j : Journal) : Outcome :=
  match findExpression host a s.maxInputSize input with
  | .ok expression => calculateLogged host a s expression j
  | .error none => refuse (usage s.appName ++ "Error: no expression given\n") j
  | .error (some (.tooLarge limit)) =>
    refuse ("Error: " ++ (InputError.tooLarge limit).message ++ "\n") j
  | .error (some e) => ⟨.error (.input e), "", j⟩

/-- Set up the loggers and calculate. -/
def calculateRequested (host : Host) (a : Arguments) (s : Settings) (input : StandardInput)
    (j : Journal) : Outcome :=
  match j.setup s with
  | (j, some e) => ⟨.error (.setup e), "", j⟩
  | (j, none) => calculateFound host a s input j

/-- Do what the arguments ask for. -/
def answer (host : Host) (s : Settings) (inv : Invocation) (j : Journal) : Outcome :=
  match Request.ofArguments s.maxNestingDepth inv.args with
  | .error e => refuse (refusal s.appName e) j
  | .ok .help => ⟨.ok 0, help s.appName s.maxNestingDepth, j⟩
  | .ok .version =>
    match versionText s.appName s.appVersion with
    | .ok text => ⟨.ok 0, text, j⟩
    | .error m => ⟨.error (.version m), "", j⟩
  | .ok (.calculate a) => calculateRequested host a s inv.input j

/-- Run the program on a host in a directory with some files. -/
def run (host : Host) (time : Moment) (inv : Invocation) (files : Files) : Outcome :=
  let loading := host.load inv.environment files
  let j := (Journal.ofFiles time files).print loading.report
  match loading.settings with
  | .error i => ⟨.error (.invalid i), "", j⟩
  | .ok s => answer host s inv j

end Reckoner.CommandLine
