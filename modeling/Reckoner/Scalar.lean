import Reckoner.Value
import Reckoner.Text.Quoted

/-!
# Scalars

The plain data that settings, log records and the fields of a fault carry: nothing, a truth value,
a whole number of any size, a double or a text. A scalar has a plain text and a shown form; they
differ for text alone, which is shown in quotes.
-/

namespace Reckoner

open Text

/-- A piece of plain data. -/
inductive Scalar where
  /-- No value. -/
  | null
  /-- A truth value. -/
  | bool (b : Bool)
  /-- A whole number of any size. -/
  | int (n : Int)
  /-- A double. -/
  | float (x : Float)
  /-- A text. -/
  | text (s : String)
  deriving DecidableEq, Inhabited

namespace Scalar

/-- The plain text of a scalar. -/
def plain : Scalar → String
  | null => "None"
  | bool true => "True"
  | bool false => "False"
  | int n => toString n
  | float x => floatText x
  | text s => s

/-- The shown form of a scalar, in which a text stands in quotes. -/
def shown : Scalar → String
  | text s => quoted s
  | s => s.plain

/-- The name of the type of a scalar. -/
def typeName : Scalar → String
  | null => "NoneType"
  | bool _ => "bool"
  | int _ => "int"
  | float _ => "float"
  | text _ => "str"

end Scalar

/-- A value as plain data. -/
def Value.toScalar : Value → Scalar
  | .integer n => .int n.val
  | .float x => .float x

/-- A value as the plain data that a strict data format can hold: a double that is not finite is
given by its text. -/
def Value.toFiniteScalar : Value → Scalar
  | .integer n => .int n.val
  | .float x => if x.isFinite then .float x else .text (floatText x)

end Reckoner
