import Reckoner.Expr
import Reckoner.Fault

/-!
# Evaluating an expression

Sums, differences and products of integers are checked against the 64-bit range; a double on
either side makes the operation one of doubles. Quotients and powers are always doubles, and a
remainder is one of integers and takes the sign of the dividend. The arguments of a call are
evaluated before they are counted, and their domain is checked last.

The operators down the left side of an expression are collected as the steps that remain to be done
with the value of its leftmost operand, and then done in order, so that a long chain of operators
needs no deep recursion.
-/

namespace Reckoner

/-- A value as a double. -/
def Value.toFloat (ops : FloatOps) : Value → Float
  | .integer n => ops.ofInt n.val
  | .float x => x

/-- An integer result, which must be within its bounds. -/
def checkedInteger (n : Int) (operation : String) (span : Span) : Except Fault Value :=
  match Integer.ofInt? n with
  | some i => .ok (.integer i)
  | none => .error ⟨.overflow operation, span⟩

/-- An operation that is checked on integers and not on doubles. -/
def arithmetic (ops : FloatOps) (onInts : Int → Int → Int) (onFloats : Float → Float → Float)
    (operation : String) (span : Span) : Value → Value → Except Fault Value
  | .integer m, .integer n => checkedInteger (onInts m.val n.val) operation span
  | v, w => .ok (.float (onFloats (v.toFloat ops) (w.toFloat ops)))

/-- The quotient of two values, a double. -/
def quotient (ops : FloatOps) (span : Span) (v w : Value) : Except Fault Value :=
  let d := w.toFloat ops
  if d == 0.0 then .error ⟨.divisionByZero, span⟩
  else .ok (.float (ops.div (v.toFloat ops) d))

/-- The remainder of two integers; it has the sign of the dividend. -/
def remainder (span : Span) : Value → Value → Except Fault Value
  | .integer m, .integer n =>
    if n.val = 0 then .error ⟨.divisionByZero, span⟩ else .ok (.integer (m.rem n))
  | _, _ => .error ⟨.floatModulo, span⟩

/-- The power of two values, a double. -/
def powerOf (ops : FloatOps) (v w : Value) : Except Fault Value :=
  .ok (.float (ops.pow (v.toFloat ops) (w.toFloat ops)))

/-- Apply an operator to its operands. -/
def BinaryOp.apply (ops : FloatOps) (op : BinaryOp) (span : Span) (v w : Value) :
    Except Fault Value :=
  match op with
  | .add => arithmetic ops (· + ·) ops.add "addition" span v w
  | .sub => arithmetic ops (· - ·) ops.sub "subtraction" span v w
  | .mul => arithmetic ops (· * ·) ops.mul "multiplication" span v w
  | .div => quotient ops span v w
  | .mod => remainder span v w
  | .pow => powerOf ops v w

/-- Apply a sign to its operand. -/
def Sign.apply (ops : FloatOps) (s : Sign) (span : Span) (v : Value) : Except Fault Value :=
  match s, v with
  | .pos, v => .ok v
  | .neg, .integer n => checkedInteger (-n.val) "negation" span
  | .neg, .float x => .ok (.float (ops.neg x))

/-- Apply a function to doubles: the first of them outside the domain is a fault. -/
def Function.applyFloats (ops : FloatOps) (f : Function) (span : Span) (xs : List Float) :
    Except Fault Value :=
  match xs.find? fun x => !f.admits x with
  | some x => .error ⟨.invalidArgument f.name (.float x) f.requirement, span⟩
  | none =>
    match f.compute? ops xs with
    | some y => .ok (.float y)
    | none => .error ⟨.wrongArgumentCount f.name f.arity xs.length, span⟩

/-- Apply a function to its arguments. -/
def Function.apply (ops : FloatOps) (f : Function) (span : Span) (vs : List Value) :
    Except Fault Value :=
  if vs.length ≠ f.arity then .error ⟨.wrongArgumentCount f.name f.arity vs.length, span⟩
  else match f.keepsIntegers, vs with
    | true, .integer n :: _ => checkedInteger n.val.natAbs f.name span
    | _, vs => f.applyFloats ops span (vs.map (Value.toFloat ops))

/-- The value of a name: only constants have one. -/
def nameValue (n : String) (span : Span) : Except Fault Value :=
  match Constant.ofName? n with
  | some c => .ok (.float c.value)
  | none => .error ⟨.unknownVariable n, span⟩

/-- What remains to be done with the value of a left operand. -/
abbrev Step := Value → Except Fault Value

/-- Do steps in order until one faults. -/
def runSteps : List Step → Value → Except Fault Value
  | [], v => .ok v
  | k :: ks, v =>
    match k v with
    | .ok w => runSteps ks w
    | .error f => .error f

mutual

/-- Evaluate an expression and do the given steps with its value. -/
def Expr.evaluateThen (ops : FloatOps) : Expr → List Step → Except Fault Value
  | .literal v _, steps => runSteps steps v
  | .name n s, steps => (nameValue n s).bind (runSteps steps)
  | .binary op l r s, steps =>
    l.evaluateThen ops
      ((fun v => (r.evaluateThen ops []).bind fun w => op.apply ops s v w) :: steps)
  | .signed sg x s, steps =>
    ((x.evaluateThen ops []).bind (sg.apply ops s)).bind (runSteps steps)
  | .call f args s, steps => ((evaluateAll ops args).bind (f.apply ops s)).bind (runSteps steps)

/-- Evaluate expressions from left to right until one faults. -/
def Expr.evaluateAll (ops : FloatOps) : List Expr → Except Fault (List Value)
  | [] => .ok []
  | e :: es =>
    (e.evaluateThen ops []).bind fun v => (evaluateAll ops es).bind fun vs => .ok (v :: vs)

end

/-- The value of an expression, or the first fault on the way to it. -/
def Expr.evaluate (ops : FloatOps) (e : Expr) : Except Fault Value := e.evaluateThen ops []

end Reckoner
