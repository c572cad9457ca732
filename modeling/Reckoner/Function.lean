import Reckoner.Number.FloatOps

/-!
# Functions and constants

The closed lists of the functions that an expression can call and of the constants that it can
name. A function has a number of arguments, may have a domain, and may keep integers; its domain is
stated as a negation, so that a value that is not a number passes it.
-/

namespace Reckoner

/-- A function that an expression can call. -/
inductive Function where
  /-- The magnitude. -/
  | abs
  /-- The square root. -/
  | sqrt
  /-- The power. -/
  | pow
  /-- The sine. -/
  | sin
  /-- The cosine. -/
  | cos
  /-- The tangent. -/
  | tan
  /-- The logarithm to base ten. -/
  | log
  /-- The natural logarithm. -/
  | ln
  deriving DecidableEq

/-- Where a function is defined. -/
structure Domain where
  /-- What an argument has to fulfil, in words. -/
  requirement : String
  /-- Whether an argument fulfils it. -/
  holds : Float → Bool

namespace Function

/-- All functions, in the order of their listing. -/
def all : List Function := [abs, sqrt, pow, sin, cos, tan, log, ln]

/-- The name of a function. -/
def name : Function → String
  | abs => "abs"
  | sqrt => "sqrt"
  | pow => "pow"
  | sin => "sin"
  | cos => "cos"
  | tan => "tan"
  | log => "log"
  | ln => "ln"

/-- The function of a name. -/
def ofName? (s : String) : Option Function := all.find? fun f => f.name == s

/-- Every function is listed. -/
theorem mem_all (f : Function) : f ∈ all := by
  cases f <;> decide

/-- A function is found by its name. -/
theorem ofName?_name (f : Function) : ofName? f.name = some f := by
  cases f <;> decide

/-- Only its own name finds a function. -/
theorem name_of_ofName? {s : String} {f : Function} (h : ofName? s = some f) : f.name = s := by
  simpa using List.find?_some h

/-- The number of arguments of a function. -/
def arity : Function → Nat
  | pow => 2
  | _ => 1

/-- Whether an integer argument gives an integer result. -/
def keepsIntegers : Function → Bool
  | abs => true
  | _ => false

/-- The domain of a function that is not defined everywhere. -/
def domain? : Function → Option Domain
  | sqrt => some ⟨"must be >= 0", fun x => !decide (x < 0.0)⟩
  | log => some ⟨"must be > 0", fun x => !decide (x ≤ 0.0)⟩
  | ln => some ⟨"must be > 0", fun x => !decide (x ≤ 0.0)⟩
  | _ => none

/-- What an argument has to fulfil, in words; nothing for a function defined everywhere. -/
def requirement (f : Function) : String := f.domain?.elim "" Domain.requirement

/-- Whether an argument is in the domain of a function. -/
def admits (f : Function) (x : Float) : Bool := f.domain?.elim true fun d => d.holds x

/-- The result of a function on doubles, if their number is right. -/
def compute? (ops : FloatOps) : Function → List Float → Option Float
  | abs, [x] => some (ops.abs x)
  | sqrt, [x] => some (ops.sqrt x)
  | pow, [x, y] => some (ops.pow x y)
  | sin, [x] => some (ops.sin x)
  | cos, [x] => some (ops.cos x)
  | tan, [x] => some (ops.tan x)
  | log, [x] => some (ops.log10 x)
  | ln, [x] => some (ops.ln x)
  | _, _ => none

/-- A function has a result exactly on as many doubles as it has arguments. -/
theorem isSome_compute?_iff (ops : FloatOps) (f : Function) (xs : List Float) :
    (f.compute? ops xs).isSome = true ↔ xs.length = f.arity := by
  cases f <;> rcases xs with _ | ⟨_, _ | ⟨_, _ | ⟨_, _⟩⟩⟩ <;> simp [compute?, arity]

end Function

/-- A constant that an expression can name. -/
inductive Constant where
  /-- The ratio of a circle's circumference to its diameter. -/
  | pi
  /-- The base of the natural logarithm. -/
  | e
  deriving DecidableEq

namespace Constant

/-- All constants, in the order of their listing. -/
def all : List Constant := [pi, e]

/-- The name of a constant. -/
def name : Constant → String
  | pi => "pi"
  | e => "e"

/-- The double nearest to a constant. -/
def value : Constant → Float
  | pi => 3.141592653589793
  | e => 2.718281828459045

/-- The constant of a name. -/
def ofName? (s : String) : Option Constant := all.find? fun c => c.name == s

/-- A constant is found by its name. -/
theorem ofName?_name (c : Constant) : ofName? c.name = some c := by
  cases c <;> decide

end Constant

end Reckoner
