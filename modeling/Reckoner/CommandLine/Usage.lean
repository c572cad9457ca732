import Reckoner.CommandLine.Arguments
import Reckoner.Text.Template

/-!
# Usage and help texts

The texts that tell how the program is called. The usage lists the switches behind the name of the
program, on lines that are indented to that name, and the expression on a line of its own; a long
name of the program stands alone. The help text adds a line on each of them.

The texts are laid out for a terminal of 80 columns. That is assumed, and it is what counts where
neither the environment nor the terminal says another number. It is also assumed that no line has to
be broken inside a word.
-/

namespace Reckoner.CommandLine

open Text

/-! ### Filling lines -/

/-- Fill lines after a line that is begun; the width of that line is given first. -/
def fillAfter (width next : Nat) (line : String) : List String → List String
  | [] => [line]
  | w :: ws =>
    if line.length + 1 + w.length ≤ width then fillAfter width next (line ++ " " ++ w) ws
    else line :: fillAfter next next w ws

/-- Fill lines with words; the width of the first line is given first. -/
def fill (width next : Nat) : List String → List String
  | [] => []
  | w :: ws => fillAfter width next w ws

/-! ### Layout -/

/-- The width of the texts, two columns less than the terminal has. -/
def textWidth : Nat := 78

/-- The column at which an explanation starts. -/
def textColumn : Nat := 24

/-- How a switch is written in the usage. -/
def Switch.usage : Switch → String
  | help => "[-h]"
  | tokens => "[--tokens]"
  | tree => "[--ast]"
  | log => "[--log LOG]"
  | maxDepth => "[--max-depth MAX_DEPTH]"
  | version => "[--version]"

/-- How a switch is written in the help text. -/
def Switch.heading : Switch → String
  | help => "-h, --help"
  | log => "--log LOG"
  | maxDepth => "--max-depth MAX_DEPTH"
  | s => s.name

/-- What the help text says of a switch. -/
def Switch.explanation (maxDepth : Int) : Switch → String
  | help => "show this help message and exit"
  | tokens => "Print the token sequence to stderr."
  | tree => "Print the syntax tree to stderr."
  | log => "Append each calculation to this file as a JSON line."
  | .maxDepth => "Maximum expression nesting (default: " ++ toString maxDepth ++ ")."
  | version => "show program's version number and exit"

/-- The name of the expression. -/
def operandName : String := "expression"

/-- What the help text says of the expression. -/
def operandExplanation : String := "Expression to evaluate (read from STDIN when omitted)."

/-- What the help text says of the program. -/
def description : String := "Evaluate an arithmetic expression."

/-- A number of spaces. -/
def spaces (n : Nat) : String := String.ofList (List.replicate n ' ')

/-- Lines as text, each of them ended. -/
def endLines (lines : List String) : String := String.join (lines.map (· ++ "\n"))

/-- The start of a usage. -/
def usageStart : String := "usage: "

/-- The lines of the usage of a program. -/
def usageLines (program : String) : List String :=
  let switches := Switch.all.map Switch.usage
  let operand := "[" ++ operandName ++ "]"
  let column := usageStart.length + program.length + 1
  if 4 * (usageStart.length + program.length) ≤ 3 * textWidth then
    match fill (textWidth - usageStart.length) (textWidth - column) (program :: switches) with
    | [] => []
    | first :: rest =>
      (usageStart ++ first) :: (rest.map (spaces column ++ ·) ++ [spaces column ++ operand])
  else
    let width := textWidth - usageStart.length
    (usageStart ++ program) :: (fill width width switches ++ [operand]).map
      (spaces usageStart.length ++ ·)

/-- The usage of a program. -/
def usage (program : String) : String := endLines (usageLines program)

/-- The lines of an entry of the help text. -/
def entryLines (heading explanation : String) : List String :=
  let head := "  " ++ heading
  let width := textWidth - textColumn
  let lines := fill width width (explanation.splitOn " ")
  let indented := lines.map (spaces textColumn ++ ·)
  if head.length + 2 ≤ textColumn then
    match lines with
    | [] => [head]
    | first :: _ => (head ++ spaces (textColumn - head.length) ++ first) :: indented.tail
  else head :: indented

/-- The help text of a program. -/
def help (program : String) (maxDepth : Int) : String :=
  endLines (usageLines program ++ ["", description, "", "positional arguments:"] ++
    entryLines operandName operandExplanation ++ ["", "options:"] ++
    Switch.all.flatMap fun s => entryLines s.heading (s.explanation maxDepth))

/-- The words of a text. -/
def words (s : String) : List String :=
  let isGap (c : Char) : Bool := c == ' ' || ('\t' ≤ c && c ≤ '\r')
  (((trimBoth isBlank s.toList).splitBy fun a b => isGap a == isGap b).filter fun w =>
    !w.all isGap).map String.ofList

/-- The version of a program on lines of text width. It stands in a template behind the name of the
program, and so a directive in it has to fit. -/
def versionText (program version : String) : Except Template.Misfit String :=
  (Template.fillNamed ("%(prog)s " ++ version) [("prog", .text program)]).map fun text =>
    match fill textWidth textWidth (words text) with
    | [] => "\n"
    | lines => endLines lines

/-- What is said of a usage error. -/
def refusal (program : String) (e : UsageError) : String :=
  usage program ++ program ++ ": error: " ++ e.message ++ "\n"

end Reckoner.CommandLine
