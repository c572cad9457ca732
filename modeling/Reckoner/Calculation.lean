import Reckoner.Diagnostic
import Reckoner.Expr.Eval
import Reckoner.Expr.Parser
import Reckoner.Expr.Tree
import Reckoner.Validation

/-!
# Calculations

A calculation scans, parses and evaluates one expression. On the way it prints the listing of the
tokens and the tree of the expression, if they are asked for, and notes what each stage did. What
was printed before a fault stays printed.
-/

namespace Reckoner

/-- The switches of a calculation. -/
structure Options where
  /-- Whether the listing of the tokens is printed. -/
  showTokens : Bool
  /-- Whether the tree of the expression is printed. -/
  showTree : Bool
  /-- The nesting limit. -/
  maxDepth : Int
  deriving DecidableEq

/-- No printing, and the nesting limit where none is given. -/
def Options.default : Options := ⟨false, false, Parser.defaultLimit⟩

/-- What a calculation gives off on its way. -/
inductive Emission where
  /-- A text was printed on lines of its own. -/
  | printed (text : String)
  /-- The source was cut into so many tokens. -/
  | scanned (tokens : Nat)
  /-- So many tokens were parsed to so many nodes. -/
  | parsed (tokens nodes : Nat)
  /-- An expression was evaluated. -/
  | evaluated (source : String) (value : Value)
  deriving DecidableEq

/-- The course of a calculation. -/
structure Calculation where
  /-- What was given off, in order. -/
  emissions : List Emission
  /-- The value, or why there is none. -/
  result : Except Stop Value

namespace Calculation

/-- The text that a calculation printed. -/
def output (c : Calculation) : String :=
  String.join (c.emissions.map fun
    | .printed t => t ++ "\n"
    | _ => "")

/-- Put emissions in front of a calculation. -/
def after (es : List Emission) (c : Calculation) : Calculation :=
  ⟨es ++ c.emissions, c.result⟩

/-- Print a text if it is asked for. -/
def printIf (asked : Bool) (text : String) : List Emission :=
  if asked then [.printed text] else []

/-- The last stage of a calculation. -/
def evaluating (ops : FloatOps) (source : String) (e : Expr) : Calculation :=
  match e.evaluate ops with
  | .error f => ⟨[], .error (.fault f)⟩
  | .ok v => ⟨[.evaluated source v], .ok v⟩

/-- The stages of a calculation after scanning. -/
def parsing (ops : FloatOps) (options : Options) (source : String) (tokens : List Token) :
    Calculation :=
  match Parser.parse tokens (Parser.State.initial .empty options.maxDepth) with
  | .error stop _ => ⟨[], .error stop⟩
  | .ok e s =>
    after (.parsed tokens.length s.arena.size :: printIf options.showTree e.tree)
      (evaluating ops source e)

end Calculation

/-- Scan, parse and evaluate an expression. -/
def calculate (ops : FloatOps) (options : Options) (source : String) : Calculation :=
  match scan source with
  | .error f => ⟨[], .error (.fault f)⟩
  | .ok tokens =>
    .after (.scanned tokens.length :: Calculation.printIf options.showTokens (Token.listing tokens))
      (.parsing ops options source tokens)

end Reckoner
