import Reckoner.Value
import Reckoner.Text.Quoted

/-!
# Tokens

A token is a lexeme with the span of the source that it was read from. A number carries its value
and a name its text; a token that was put together by hand may lack either, which is then shown as
`None`.
-/

namespace Reckoner

/-- A half-open range of source offsets. -/
structure Span where
  /-- The offset of the first character. -/
  start : Int
  /-- The offset after the last character. -/
  stop : Int
  deriving DecidableEq, Inhabited

/-- What a token is. -/
inductive Lexeme where
  /-- A numeric literal. -/
  | number (value : Option Value)
  /-- The name of a constant, a variable or a function. -/
  | identifier (name : Option String)
  /-- The sign `+`. -/
  | plus
  /-- The sign `-`. -/
  | minus
  /-- The sign `*`. -/
  | times
  /-- The sign `/`. -/
  | divide
  /-- The sign `%`. -/
  | modulo
  /-- The sign `^`. -/
  | power
  /-- An opening parenthesis. -/
  | lparen
  /-- A closing parenthesis. -/
  | rparen
  /-- A comma. -/
  | comma
  /-- The end of the input. -/
  | eof
  deriving DecidableEq

namespace Lexeme

/-- The name of the kind of a lexeme. -/
def kindName : Lexeme → String
  | number _ => "number"
  | identifier _ => "identifier"
  | plus => "add"
  | minus => "sub"
  | times => "mul"
  | divide => "div"
  | modulo => "mod"
  | power => "pow"
  | lparen => "lparen"
  | rparen => "rparen"
  | comma => "comma"
  | eof => "eof"

/-- The capital label of the kind of a lexeme. -/
def label : Lexeme → String
  | number _ => "NUMBER"
  | identifier _ => "IDENTIFIER"
  | plus => "PLUS"
  | minus => "MINUS"
  | times => "MULTIPLY"
  | divide => "DIVIDE"
  | modulo => "MODULO"
  | power => "POWER"
  | lparen => "LPAREN"
  | rparen => "RPAREN"
  | comma => "COMMA"
  | eof => "EOF"

/-- A lexeme as one line of a token listing: its kind, and what it carries in parentheses. -/
def display : Lexeme → String
  | number v => "number(" ++ v.elim "None" Value.text ++ ")"
  | identifier n => "identifier(" ++ n.getD "None" ++ ")"
  | l => l.kindName

/-- A lexeme as a fault names it. -/
def describe : Lexeme → String
  | eof => "end of input"
  | l => l.display

/-- All but the end of the input are described as they are listed. -/
theorem describe_of_ne_eof {l : Lexeme} (h : l ≠ eof) : l.describe = l.display := by
  cases l <;> first | rfl | exact absurd rfl h

end Lexeme

/-- A lexeme at its place in the source. -/
structure Token where
  /-- What the token is. -/
  lexeme : Lexeme
  /-- Where it was read. -/
  span : Span
  deriving DecidableEq

namespace Token

/-- The value of a number token. -/
def value? (t : Token) : Option Value :=
  match t.lexeme with
  | .number v => v
  | _ => none

/-- The text of a name token. -/
def name? (t : Token) : Option String :=
  match t.lexeme with
  | .identifier n => n
  | _ => none

/-- A token with its label, its line of a listing in quotes and its span. -/
def shown (t : Token) : String :=
  "Token(" ++ t.lexeme.label ++ ", " ++ Text.quoted t.lexeme.display ++ ", " ++
    toString t.span.start ++ ":" ++ toString t.span.stop ++ ")"

/-- Tokens one per line, in order. -/
def listing (ts : List Token) : String :=
  String.intercalate "\n" (ts.map fun t => t.lexeme.display)

end Token

end Reckoner
