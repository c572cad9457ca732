import Reckoner.Proofs.Evaluation.Recursion

/-!
# Two ways to write a power

A power can be written with its operator or as a call of its function. Both evaluate the base and
then the exponent, and neither adds a fault of its own, so they have one outcome. The outcome of an
expression depends on a part of it only through the outcome of the part; so in any surroundings the
one may stand for the other, although an operator joins the chain of operators that it is the left
operand of and a call ends it.
-/

namespace Reckoner.Expr

/-- An expression around one of its parts. -/
inductive Surroundings where
  /-- Nothing around the part. -/
  | nothing
  /-- The part is in the left operand of an operator. -/
  | left (op : BinaryOp) (inner : Surroundings) (right : Expr) (span : Span)
  /-- The part is in the right operand of an operator. -/
  | right (op : BinaryOp) (left : Expr) (inner : Surroundings) (span : Span)
  /-- The part is in the operand of a sign. -/
  | signed (sign : Sign) (inner : Surroundings) (span : Span)
  /-- The part is in an argument of a call. -/
  | argument (function : Function) (before : List Expr) (inner : Surroundings) (after : List Expr)
      (span : Span)

/-- Put a part into its surroundings. -/
def Surroundings.fill : Surroundings → Expr → Expr
  | nothing, e => e
  | left op c r s, e => .binary op (c.fill e) r s
  | right op l c s, e => .binary op l (c.fill e) s
  | signed sg c s, e => .signed sg (c.fill e) s
  | argument f before c after s, e => .call f (before ++ c.fill e :: after) s

variable (ops : FloatOps)

/-- The arguments of a call are evaluated part by part. -/
theorem evaluateAll_append (as bs : List Expr) :
    evaluateAll ops (as ++ bs) = (evaluateAll ops as).bind fun vs =>
      (evaluateAll ops bs).bind fun ws => .ok (vs ++ ws) := by
  induction as with
  | nil =>
    rw [List.nil_append, evaluateAll_nil, ok_bind]
    cases evaluateAll ops bs <;> rfl
  | cons a as ih =>
    rw [List.cons_append, evaluateAll_cons, evaluateAll_cons, ih, bind_assoc]
    congr 1
    funext v
    rw [bind_assoc, bind_assoc]
    congr 1
    funext vs
    rw [ok_bind, bind_assoc]
    rfl

/-- An expression depends on a part of it only through the outcome of the part. -/
theorem Surroundings.evaluate_fill_congr {e e' : Expr} (h : e.evaluate ops = e'.evaluate ops)
    (c : Surroundings) : (c.fill e).evaluate ops = (c.fill e').evaluate ops := by
  induction c with
  | nothing => exact h
  | left op c r s ih => rw [fill, fill, evaluate_binary, evaluate_binary, ih]
  | right op l c s ih => rw [fill, fill, evaluate_binary, evaluate_binary, ih]
  | signed sg c s ih => rw [fill, fill, evaluate_signed, evaluate_signed, ih]
  | argument f before c after s ih =>
    rw [fill, fill, evaluate_call, evaluate_call, evaluateAll_append, evaluateAll_append,
      evaluateAll_cons, evaluateAll_cons, ih]

/-- The outcome of a power: the base is evaluated first, and the power of two values is a double. -/
def powerOutcome (base exponent : Expr) : Except Fault Value :=
  (base.evaluate ops).bind fun v => (exponent.evaluate ops).bind fun w =>
    .ok (.float (ops.pow (v.toFloat ops) (w.toFloat ops)))

/-- The operator has the outcome of a power. -/
theorem evaluate_powerOperator (a b : Expr) (s : Span) :
    (binary .pow a b s).evaluate ops = powerOutcome ops a b := evaluate_binary ops .pow a b s

/-- The call has the outcome of a power. -/
theorem evaluate_powerCall (a b : Expr) (s : Span) :
    (call .pow [a, b] s).evaluate ops = powerOutcome ops a b := by
  rw [evaluate_call, evaluateAll_cons, evaluateAll_cons, evaluateAll_nil, bind_assoc, powerOutcome]
  congr 1
  funext v
  rw [bind_assoc, bind_assoc]
  rfl

/-- A call of the power function and the operator have one outcome, a double or the first fault of
the operands, wherever the two stand, and so has an expression in which one of them is put in the
place of the other. -/
theorem evaluate_power (a b : Expr) (s t : Span) (c : Surroundings) :
    (call .pow [a, b] s).evaluate ops = powerOutcome ops a b ∧
      (binary .pow a b t).evaluate ops = powerOutcome ops a b ∧
      (c.fill (call .pow [a, b] s)).evaluate ops = (c.fill (binary .pow a b t)).evaluate ops := by
  have hcall := evaluate_powerCall ops a b s
  have hoperator := evaluate_powerOperator ops a b t
  exact ⟨hcall, hoperator, c.evaluate_fill_congr ops (hcall.trans hoperator.symm)⟩

end Reckoner.Expr
