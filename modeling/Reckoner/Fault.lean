import Reckoner.Scalar
import Reckoner.Token

/-!
# Faults of a calculation

A fault is a cause at a span of the source. The causes are a closed list in three stages: cutting
the source into tokens, parsing the tokens, evaluating the expression. Each cause has one wording,
and the data that the wording mentions can be listed by name. A syntax fault stands at the span of
the token it was found at.
-/

namespace Reckoner

/-- The stage of a calculation at which a fault arises. -/
inductive Stage where
  /-- Cutting the source into tokens. -/
  | scanning
  /-- Parsing the tokens. -/
  | parsing
  /-- Evaluating the expression. -/
  | evaluating
  deriving DecidableEq

/-- Why a calculation ends without a value. -/
inductive Cause where
  /-- A character starts no token. -/
  | invalidCharacter (char : String)
  /-- A literal does not fit its type. -/
  | invalidNumber (text reason : String)
  /-- A number, a group, a call or a name was expected. -/
  | expectedPrimary (found : Lexeme) (wanted : String)
  /-- A group or an argument list is not closed. -/
  | expectedRParen (found : Lexeme)
  /-- Tokens remain after a complete expression. -/
  | trailingInput (found : Lexeme)
  /-- The expression nests deeper than the limit. -/
  | nestingTooDeep (found : Lexeme) (limit : Int)
  /-- A divisor is zero. -/
  | divisionByZero
  /-- An operand of a remainder is not an integer. -/
  | floatModulo
  /-- Integer arithmetic leaves the 64-bit range. -/
  | overflow (operation : String)
  /-- An argument is outside the domain of its function. -/
  | invalidArgument (function : String) (argument : Scalar) (requirement : String)
  /-- A function has another number of arguments. -/
  | wrongArgumentCount (function : String) (expected got : Int)
  /-- A name is not that of a constant. -/
  | unknownVariable (name : String)
  deriving DecidableEq

namespace Cause

/-- What a primary expression starts with. -/
def primaryWanted : String := "expected a number, '(' or a name"

/-- What is said of a name before `(` that is not a function. -/
def unknownFunctionWanted (name : String) : String := "unknown function '" ++ name ++ "'"

/-- Why an integer literal beyond 64 bits is refused. -/
def outOfRangeReason : String := "integer literal out of range"

/-- Why an integer literal of too many digits is refused. -/
def tooManyDigitsReason (limit digits : Nat) : String :=
  "Exceeds the limit (" ++ toString limit ++
    " digits) for integer string conversion: value has " ++ toString digits ++
    " digits; use sys.set_int_max_str_digits() to increase the limit"

/-- The stage at which a cause arises. -/
def stage : Cause → Stage
  | invalidCharacter _ | invalidNumber _ _ => .scanning
  | expectedPrimary _ _ | expectedRParen _ | trailingInput _ | nestingTooDeep _ _ => .parsing
  | _ => .evaluating

/-- The lexeme at which a syntax fault was found. -/
def found? : Cause → Option Lexeme
  | expectedPrimary l _ | expectedRParen l | trailingInput l | nestingTooDeep l _ => some l
  | _ => none

/-- The name of the kind of a cause. -/
def kindName : Cause → String
  | invalidCharacter _ => "InvalidCharacter"
  | invalidNumber _ _ => "InvalidNumber"
  | expectedPrimary _ _ => "ExpectedPrimary"
  | expectedRParen _ => "ExpectedRParen"
  | trailingInput _ => "TrailingInput"
  | nestingTooDeep _ _ => "NestingTooDeep"
  | divisionByZero => "DivisionByZero"
  | floatModulo => "FloatModulo"
  | overflow _ => "Overflow"
  | invalidArgument _ _ _ => "InvalidFunctionArgument"
  | wrongArgumentCount _ _ _ => "WrongArgumentCount"
  | unknownVariable _ => "UnknownVariable"

/-- The name of a cause in the shown form of a fault. -/
def errorName : Cause → String
  | overflow _ => "IntegerOverflowError"
  | c => c.kindName ++ "Error"

/-- The wording of a cause. -/
def message : Cause → String
  | invalidCharacter c => "invalid character " ++ Text.quoted c
  | invalidNumber t r => "invalid number '" ++ t ++ "': " ++ r
  | expectedPrimary l w => w ++ ", found " ++ l.describe
  | expectedRParen l => "expected ')', found " ++ l.describe
  | trailingInput l => "unexpected input after expression, found " ++ l.describe
  | nestingTooDeep l n =>
    "expression nested deeper than " ++ toString n ++ " levels, found " ++ l.describe
  | divisionByZero => "division by zero"
  | floatModulo => "modulo requires integer operands"
  | overflow o => "integer overflow in " ++ o
  | invalidArgument f a r => "invalid argument to " ++ f ++ "(): " ++ a.plain ++ " (" ++ r ++ ")"
  | wrongArgumentCount f n m =>
    f ++ "() takes " ++ toString n ++ " argument" ++ (if n = 1 then "" else "s") ++ ", got " ++
      toString m
  | unknownVariable n => "unknown variable '" ++ n ++ "'"

/-- The data that a cause carries, by name. -/
def details : Cause → List (String × Scalar)
  | invalidCharacter c => [("char", .text c)]
  | invalidNumber t _ => [("text", .text t)]
  | expectedPrimary l _ | expectedRParen l | trailingInput l => [("found", .text l.kindName)]
  | nestingTooDeep l n => [("found", .text l.kindName), ("limit", .int n)]
  | divisionByZero | floatModulo => []
  | overflow o => [("operation", .text o)]
  | invalidArgument f a _ => [("function", .text f), ("argument", a)]
  | wrongArgumentCount f n m => [("function", .text f), ("expected", .int n), ("got", .int m)]
  | unknownVariable n => [("name", .text n)]

end Cause

/-- A cause at its place in the source. -/
structure Fault where
  /-- Why the calculation ends. -/
  cause : Cause
  /-- Where the source is to blame. -/
  span : Span
  deriving DecidableEq

namespace Fault

/-- The wording of a fault. -/
def message (f : Fault) : String := f.cause.message

/-- A fault with its name, its wording in quotes and its span. -/
def shown (f : Fault) : String :=
  f.cause.errorName ++ "(" ++ Text.quoted f.message ++ ", start=" ++ toString f.span.start ++
    ", end=" ++ toString f.span.stop ++ ")"

/-- A character that starts no token, at its offset. -/
def invalidCharacter (char : String) (at_ : Int) : Fault :=
  ⟨.invalidCharacter char, ⟨at_, at_ + 1⟩⟩

end Fault

/-- A syntax fault at a token. -/
def Token.fault (t : Token) (cause : Lexeme → Cause) : Fault := ⟨cause t.lexeme, t.span⟩

end Reckoner
