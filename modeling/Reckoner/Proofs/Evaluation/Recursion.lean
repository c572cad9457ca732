import Reckoner.Expr.Eval

/-!
# Evaluation by recursion

Evaluation carries the steps that remain to be done with the value of the leftmost operand. These
lemmas take the steps out again: the value of a node is stated by the values of its operands alone,
so that properties of evaluation can be proved by induction over the expression.
-/

namespace Reckoner

namespace Expr

/-- Structural induction over expressions, in which all arguments of a call may be assumed to have
the property. -/
@[elab_as_elim, induction_eliminator]
theorem recursion {motive : Expr → Prop}
    (literal : ∀ v s, motive (literal v s))
    (name : ∀ n s, motive (name n s))
    (binary : ∀ op l r s, motive l → motive r → motive (binary op l r s))
    (signed : ∀ sg x s, motive x → motive (signed sg x s))
    (call : ∀ f args s, (∀ a ∈ args, motive a) → motive (call f args s)) :
    ∀ e, motive e
  | .literal v s => literal v s
  | .name n s => name n s
  | .binary op l r s =>
    binary op l r s (recursion literal name binary signed call l)
      (recursion literal name binary signed call r)
  | .signed sg x s => signed sg x s (recursion literal name binary signed call x)
  | .call f args s => call f args s fun a _ => recursion literal name binary signed call a

end Expr

section Outcomes

variable {ε α β γ : Type}

@[simp] theorem ok_bind (a : α) (f : α → Except ε β) : (Except.ok a).bind f = f a := rfl

@[simp] theorem error_bind (e : ε) (f : α → Except ε β) : (Except.error e).bind f = .error e := rfl

theorem bind_assoc (x : Except ε α) (f : α → Except ε β) (g : β → Except ε γ) :
    (x.bind f).bind g = x.bind fun a => (f a).bind g := by
  cases x <;> rfl

end Outcomes

variable (ops : FloatOps)

@[simp] theorem runSteps_nil (v : Value) : runSteps [] v = .ok v := rfl

@[simp] theorem runSteps_cons (k : Step) (ks : List Step) (v : Value) :
    runSteps (k :: ks) v = (k v).bind (runSteps ks) := by
  rw [runSteps]
  cases k v <;> rfl

/-- Doing no steps keeps an outcome. -/
@[simp] theorem bind_runSteps_nil (x : Except Fault Value) : x.bind (runSteps []) = x := by
  cases x <;> rfl

namespace Expr

/-- The value of an expression comes first and the steps are done with it. -/
theorem evaluateThen_eq (e : Expr) (steps : List Step) :
    e.evaluateThen ops steps = (e.evaluate ops).bind (runSteps steps) := by
  induction e generalizing steps with
  | literal v s => rfl
  | name n s => rw [evaluate, evaluateThen, evaluateThen, bind_runSteps_nil]
  | binary op l r s ihl _ =>
    rw [evaluate, evaluateThen, evaluateThen, ihl, ihl (_ :: []), bind_assoc]
    congr 1
    funext v
    rw [runSteps_cons, runSteps_cons, bind_runSteps_nil]
  | signed sg x s _ => rw [evaluate, evaluateThen, evaluateThen, bind_runSteps_nil]
  | call f args s _ => rw [evaluate, evaluateThen, evaluateThen, bind_runSteps_nil]

@[simp] theorem evaluate_literal (v : Value) (s : Span) : (literal v s).evaluate ops = .ok v := rfl

@[simp] theorem evaluate_name (n : String) (s : Span) :
    (name n s).evaluate ops = nameValue n s := by
  rw [evaluate, evaluateThen, bind_runSteps_nil]

/-- The left operand is evaluated first, then the right one, and then the operator is applied. -/
theorem evaluate_binary (op : BinaryOp) (l r : Expr) (s : Span) :
    (binary op l r s).evaluate ops =
      (l.evaluate ops).bind fun v => (r.evaluate ops).bind fun w => op.apply ops s v w := by
  rw [evaluate, evaluateThen, evaluateThen_eq]
  congr 1
  funext v
  rw [runSteps_cons, bind_runSteps_nil]
  rfl

/-- The operand is evaluated before the sign is applied. -/
theorem evaluate_signed (sg : Sign) (x : Expr) (s : Span) :
    (signed sg x s).evaluate ops = (x.evaluate ops).bind (sg.apply ops s) := by
  rw [evaluate, evaluateThen, bind_runSteps_nil]
  rfl

/-- The arguments are evaluated before the function is applied. -/
theorem evaluate_call (f : Function) (args : List Expr) (s : Span) :
    (call f args s).evaluate ops = (evaluateAll ops args).bind (f.apply ops s) := by
  rw [evaluate, evaluateThen, bind_runSteps_nil]

@[simp] theorem evaluateAll_nil : evaluateAll ops [] = .ok [] := rfl

/-- Expressions are evaluated from left to right. -/
theorem evaluateAll_cons (e : Expr) (es : List Expr) :
    evaluateAll ops (e :: es) = (e.evaluate ops).bind fun v =>
      (evaluateAll ops es).bind fun vs => .ok (v :: vs) := rfl

/-- Operators with their right operands, as they follow each other in a chain. -/
abbrev Links := List (BinaryOp × Expr × Span)

/-- The chain that starts with an operand: each operator has all before it as its left operand. -/
def chain (e : Expr) (links : Links) : Expr :=
  links.foldl (fun l k => .binary k.1 l k.2.1 k.2.2) e

/-- A chain is evaluated operand by operand: after its first operand, each right operand is
evaluated when its operator is due, and the first fault on the way is that of the chain. -/
theorem evaluate_chain (e : Expr) (links : Links) :
    (e.chain links).evaluate ops = (e.evaluate ops).bind (runSteps (links.map fun k v =>
      (k.2.1.evaluate ops).bind fun w => k.1.apply ops k.2.2 v w)) := by
  induction links generalizing e with
  | nil => rw [List.map_nil, bind_runSteps_nil, chain, List.foldl_nil]
  | cons k ks ih =>
    rw [chain, List.foldl_cons, ← chain, ih, evaluate_binary, List.map_cons, bind_assoc]
    congr 1
    funext v
    rw [runSteps_cons]

end Expr

end Reckoner
