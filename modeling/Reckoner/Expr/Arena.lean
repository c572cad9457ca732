import Reckoner.Expr

/-!
# Node accounts

An arena counts the nodes that were built for one calculation and can be released once and for all.
A node that was built stays usable after the release, but no further node can be built. Building a
node from parts that do not make one fails before the arena is asked.
-/

namespace Reckoner

/-- The account of the nodes of one calculation. -/
structure Arena where
  /-- The number of nodes built since the start, none after a release. -/
  size : Nat
  /-- Whether the arena was released. -/
  released : Bool
  deriving DecidableEq

/-- Why a node cannot be built. -/
inductive BuildError where
  /-- The kind of a binary node is not that of an operator. -/
  | unknownOperator (given : Scalar)
  /-- The kind of a unary node is not that of a sign. -/
  | unknownSign (given : Scalar)
  /-- The name of a call is not that of a function. -/
  | unknownFunction (name : String)
  /-- A number node was given plain data and not a value. -/
  | notAValue (given : Scalar)
  /-- The arena was released. -/
  | released
  deriving DecidableEq

/-- The wording of a build error. -/
def BuildError.message : BuildError → String
  | unknownOperator k => k.shown ++ " is not a valid BinaryKind"
  | unknownSign k => k.shown ++ " is not a valid UnaryKind"
  | unknownFunction n => "Unknown function: " ++ n
  | notAValue s => "Number requires a Value, got " ++ s.typeName
  | released => "Cannot allocate from a released arena"

/-- The operator whose name a scalar is. -/
def BinaryOp.ofScalar (k : Scalar) : Except BuildError BinaryOp :=
  match BinaryOp.all.find? fun op => k == .text op.name with
  | some op => .ok op
  | none => .error (.unknownOperator k)

/-- The sign whose name a scalar is. -/
def Sign.ofScalar (k : Scalar) : Except BuildError Sign :=
  match Sign.all.find? fun s => k == .text s.name with
  | some s => .ok s
  | none => .error (.unknownSign k)

/-- The function of a name. -/
def Function.ofName (n : String) : Except BuildError Function :=
  match Function.ofName? n with
  | some f => .ok f
  | none => .error (.unknownFunction n)

namespace Expr

/-- A binary node of a kind that is given by a scalar. -/
def binaryOf (kind : Scalar) (left right : Expr) (span : Span) : Except BuildError Expr :=
  (BinaryOp.ofScalar kind).map fun op => .binary op left right span

/-- A unary node of a kind that is given by a scalar. -/
def signedOf (kind : Scalar) (operand : Expr) (span : Span) : Except BuildError Expr :=
  (Sign.ofScalar kind).map fun s => .signed s operand span

/-- A call of a function that is given by its name. -/
def callOf (name : String) (args : List Expr) (span : Span) : Except BuildError Expr :=
  (Function.ofName name).map fun f => .call f args span

end Expr

namespace Arena

/-- An arena without nodes. -/
def empty : Arena := ⟨0, false⟩

/-- Release an arena. -/
def release (_ : Arena) : Arena := ⟨0, true⟩

/-- Count a node that was built, unless the arena was released. -/
def own (a : Arena) (built : Except BuildError Expr) : Except BuildError Expr × Arena :=
  match built with
  | .error e => (.error e, a)
  | .ok e => if a.released then (.error .released, a) else (.ok e, { a with size := a.size + 1 })

/-- A node that could not be built leaves the arena as it is. -/
theorem own_error (a : Arena) (e : BuildError) : a.own (.error e) = (.error e, a) := rfl

/-- After a release nothing is counted any more. -/
theorem own_release (a : Arena) (built : Except BuildError Expr) :
    (a.release.own built).2 = a.release := by
  cases built <;> simp [own, release]

end Arena

end Reckoner
