import Reckoner.Scalar

/-!
# Validation of plain data

Fields are given as scalars and have to be of the type that their owner declares. All fields that
fail are reported together. The integer of a value is strict: only a whole number is one.
-/

namespace Reckoner

/-- What is wrong with a field. -/
inductive Problem where
  /-- Nothing was given. -/
  | missing
  /-- A whole number was expected. -/
  | intType
  /-- A number is less than a bound that it may reach. -/
  | greaterThanEqual
  /-- A number is greater than a bound that it may reach. -/
  | lessThanEqual
  /-- A number is not greater than a bound. -/
  | greaterThan
  /-- A text spells no whole number. -/
  | intParsing
  /-- A double has a fraction. -/
  | intFromFloat
  /-- A double is not finite. -/
  | finiteNumber
  /-- A text spells no number. -/
  | floatParsing
  /-- Something spells no truth value. -/
  | boolParsing
  /-- A truth value was expected. -/
  | boolType
  /-- A text was expected. -/
  | stringType
  deriving DecidableEq

/-- The name of a problem. -/
def Problem.name : Problem → String
  | missing => "missing"
  | intType => "int_type"
  | greaterThanEqual => "greater_than_equal"
  | lessThanEqual => "less_than_equal"
  | greaterThan => "greater_than"
  | intParsing => "int_parsing"
  | intFromFloat => "int_from_float"
  | finiteNumber => "finite_number"
  | floatParsing => "float_parsing"
  | boolParsing => "bool_parsing"
  | boolType => "bool_type"
  | stringType => "string_type"

/-- The fields that fail, each with its problem, in the order of their declaration. -/
structure Invalid where
  /-- The fields and problems. -/
  problems : List (String × Problem)
  deriving DecidableEq

/-- The fields that fail in one line. -/
def Invalid.message (i : Invalid) : String :=
  String.intercalate "; " (i.problems.map fun p => p.1 ++ ": " ++ p.2.name)

namespace Scalar

/-- Read a scalar as an integer value; only a whole number is one. -/
def toInteger : Scalar → Except Problem Integer
  | null => .error .missing
  | int n =>
    match Integer.ofInt? n with
    | some i => .ok i
    | none => .error (if n < 0 then .greaterThanEqual else .lessThanEqual)
  | _ => .error .intType

end Scalar

/-- The outcome of one field, reported under its name. -/
def checkField {α : Type} (name : String) (r : Except Problem α) : Except Invalid α :=
  match r with
  | .ok a => .ok a
  | .error p => .error ⟨[(name, p)]⟩

/-- The integer value of a whole number, or why it has none. -/
def Value.ofInt (n : Int) : Except Invalid Value :=
  (checkField "value" (Scalar.int n).toInteger).map Value.integer

end Reckoner
