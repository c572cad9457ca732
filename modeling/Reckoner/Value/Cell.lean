import Reckoner.Number.Reading
import Reckoner.Validation

/-!
# Cells

A cell holds the value of a number node: an integer, a double, or plain data that was put there
without a type. Plain data is shown in its shown form and is never an integer value. Turning a cell
into a double fails for numbers beyond the doubles and for texts that spell none.
-/

namespace Reckoner

/-- What a number node can hold. -/
inductive Cell where
  /-- A value. -/
  | typed (v : Value)
  /-- Plain data without a type. -/
  | untyped (s : Scalar)
  deriving DecidableEq

/-- Why something cannot be turned into a double. -/
inductive ConversionError where
  /-- A whole number rounds to no finite double. -/
  | tooLarge
  /-- A text spells no number. -/
  | notANumber (text : String)
  /-- There is nothing to convert. -/
  | nothing
  deriving DecidableEq

/-- The wording of a conversion error. -/
def ConversionError.message : ConversionError → String
  | tooLarge => "int too large to convert to float"
  | notANumber t => "could not convert string to float: " ++ Text.quoted t
  | nothing => "float() argument must be a string or a real number, not 'NoneType'"

/-- Turn a whole number into a double. -/
def intToFloat (n : Int) : Except ConversionError Float :=
  let x := Float.ofInt n
  if x.isInf then .error .tooLarge else .ok x

/-- Turn plain data into a double. -/
def Scalar.toFloat : Scalar → Except ConversionError Float
  | null => .error .nothing
  | bool b => .ok (if b then 1.0 else 0.0)
  | int n => intToFloat n
  | float x => .ok x
  | text s =>
    match readFreeFloat? s with
    | some x => .ok x
    | none => .error (.notANumber s)

/-- Why a cell cannot be filled. -/
inductive CellError where
  /-- The data is not of the type of the cell. -/
  | invalid (i : Invalid)
  /-- A whole number cannot be turned into a double. -/
  | conversion (e : ConversionError)
  deriving DecidableEq

namespace Cell

/-- A cell for an integer. -/
def ofInteger (s : Scalar) : Except CellError Cell :=
  match checkField "value" s.toInteger with
  | .ok n => .ok (typed (.integer n))
  | .error i => .error (.invalid i)

/-- A cell for a double. -/
def ofFloat (s : Scalar) : Except CellError Cell :=
  match s with
  | .null => .error (.invalid ⟨[("value", .missing)]⟩)
  | .text t =>
    match readPlainFloat? t with
    | some x => .ok (typed (.float x))
    | none => .error (.invalid ⟨[("value", .floatParsing)]⟩)
  | s =>
    match s.toFloat with
    | .ok x => .ok (typed (.float x))
    | .error e => .error (.conversion e)

/-- A cell for any data. -/
def ofAny (s : Scalar) : Except CellError Cell :=
  match s with
  | .null => .error (.invalid ⟨[("value", .missing)]⟩)
  | s => .ok (untyped s)

/-- The text of a cell. -/
def text : Cell → String
  | typed v => v.text
  | untyped s => s.shown

/-- A cell with its kind. -/
def shown : Cell → String
  | typed v => v.shown
  | untyped s => "Value(" ++ s.shown ++ ")"

/-- The name of the kind of a cell. -/
def kindName : Cell → String
  | typed v => v.kindName
  | untyped _ => "value"

/-- Whether a cell holds an integer value. -/
def isInteger : Cell → Bool
  | typed v => v.isInteger
  | untyped _ => false

/-- Turn the content of a cell into a double. -/
def toFloat : Cell → Except ConversionError Float
  | typed v => v.toScalar.toFloat
  | untyped s => s.toFloat

/-- The content of a cell as the plain data of a calculation log. -/
def logged : Cell → Scalar
  | typed v => v.toFiniteScalar
  | untyped s => s

end Cell

end Reckoner
