import Reckoner.Function
import Reckoner.Value.Cell

/-!
# Direct calls

A function called directly on plain data, without the checks that evaluation makes. The magnitude
of a whole number is a whole number of any size; all else is turned into doubles first. A function
that is not defined at an argument then fails.
-/

namespace Reckoner

/-- Why a direct call fails. -/
inductive CallError where
  /-- An argument cannot be turned into a double. -/
  | conversion (e : ConversionError)
  /-- The function is not defined at an argument. -/
  | domain
  /-- The number of arguments is wrong. -/
  | argumentCount
  deriving DecidableEq

/-- The wording of a failed direct call. -/
def CallError.message : CallError → String
  | conversion e => e.message
  | domain => "math domain error"
  | argumentCount => "wrong number of arguments"

namespace Function

/-- Whether an argument is in the domain of a function, for plain data: numbers beyond the doubles
count as infinite. -/
def admitsScalar (f : Function) : Scalar → Bool
  | .int n => f.admits (Float.ofInt n)
  | .float x => f.admits x
  | .bool b => f.admits (if b then 1.0 else 0.0)
  | _ => false

/-- Call a function on doubles. -/
def callFloats (ops : FloatOps) (f : Function) (xs : List Float) : Except CallError Scalar :=
  if xs.all f.admits then
    match f.compute? ops xs with
    | some y => .ok (.float y)
    | none => .error .argumentCount
  else .error .domain

/-- Call a function on plain data. -/
def callDirect (ops : FloatOps) (f : Function) (args : List Scalar) : Except CallError Scalar :=
  match f, args with
  | .abs, [.int n] => .ok (.int n.natAbs)
  | f, args =>
    match args.mapM Scalar.toFloat with
    | .ok xs => f.callFloats ops xs
    | .error e => .error (.conversion e)

end Function

end Reckoner
