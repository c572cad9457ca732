import Reckoner.Proofs.Evaluation.Recursion

/-!
# Nested visits

An expression is evaluated by visits of its nodes, where each visit waits for those of the operands
that it needs. The operators down the left side of an expression belong to one visit: it visits the
operand that stands first, and then the right operands in their order. `Expr.frames` is the greatest
number of visits that wait at one time. Evaluation that nests no more visits than it is allowed ends
as evaluation does if it is allowed that many.
-/

namespace Reckoner.Expr

/-- Whether an expression is two operands joined by an operator. -/
def isBinary : Expr → Bool
  | binary _ _ _ _ => true
  | _ => false

mutual

/-- The greatest number of nested visits in the evaluation of an expression. A left operand that is
itself two operands joined by an operator belongs to the same visit. -/
def frames : Expr → Nat
  | literal _ _ => 1
  | name _ _ => 1
  | binary _ l r _ => max (if l.isBinary then l.frames else 1 + l.frames) (1 + r.frames)
  | signed _ x _ => 1 + x.frames
  | call _ args _ => 1 + framesAll args

/-- The greatest number of nested visits in the evaluation of several expressions, none for no
expressions. -/
def framesAll : List Expr → Nat
  | [] => 0
  | e :: es => max e.frames (framesAll es)

end

/-- The greatest number of nested visits of an operator, as far as its left operand is concerned. -/
def leftFrames (e : Expr) : Nat := if e.isBinary then e.frames else 1 + e.frames

theorem frames_binary (op : BinaryOp) (l r : Expr) (s : Span) :
    (binary op l r s).frames = max l.leftFrames (1 + r.frames) := rfl

@[simp] theorem leftFrames_binary (op : BinaryOp) (l r : Expr) (s : Span) :
    (binary op l r s).leftFrames = (binary op l r s).frames := rfl

theorem leftFrames_of_not_isBinary {e : Expr} (h : e.isBinary = false) :
    e.leftFrames = 1 + e.frames := by
  rw [leftFrames, h]
  rfl

/-- Below an operator an expression needs at most one visit more. -/
theorem frames_le_leftFrames (e : Expr) :
    e.frames ≤ e.leftFrames ∧ e.leftFrames ≤ 1 + e.frames := by
  unfold leftFrames
  split <;> omega

/-- Every evaluation is a visit. -/
theorem frames_pos (e : Expr) : 0 < e.frames := by
  cases e <;> rw [frames] <;> omega

theorem framesAll_append (as bs : List Expr) :
    framesAll (as ++ bs) = max (framesAll as) (framesAll bs) := by
  induction as with
  | nil => simp [framesAll]
  | cons a as ih => rw [List.cons_append, framesAll, framesAll, ih, Nat.max_assoc]

/-- None of several expressions nests more visits than all together. -/
theorem frames_le_framesAll {e : Expr} {es : List Expr} (h : e ∈ es) : e.frames ≤ framesAll es := by
  induction es with
  | nil => cases h
  | cons a es ih =>
    rw [framesAll]
    rcases List.mem_cons.mp h with rfl | h
    · exact Nat.le_max_left _ _
    · exact Nat.le_trans (ih h) (Nat.le_max_right _ _)

/-- The operators of a chain are one visit. -/
private theorem leftFrames_chain (e : Expr) (links : Links) : (e.chain links).leftFrames =
    max e.leftFrames (1 + framesAll (links.map fun k => k.2.1)) := by
  induction links generalizing e with
  | nil =>
    have hpos := e.frames_pos
    have hle := e.frames_le_leftFrames
    simp only [chain, List.foldl_nil, List.map_nil, framesAll]
    omega
  | cons k links ih =>
    rw [chain, List.foldl_cons, ← chain, ih, leftFrames_binary, frames_binary, List.map_cons,
      framesAll]
    omega

private theorem isBinary_chain {e : Expr} (h : e.isBinary = true) (links : Links) :
    (e.chain links).isBinary = true := by
  induction links generalizing e with
  | nil => exact h
  | cons k links ih => exact ih rfl

/-- The visit of a chain nests one visit more than its operands do: the one that stands first, which
is no chain itself, and the right operands. -/
theorem frames_chain {e : Expr} (he : e.isBinary = false) {links : Links} (hlinks : links ≠ []) :
    (e.chain links).frames = 1 + framesAll (e :: links.map fun k => k.2.1) := by
  obtain ⟨k, links, rfl⟩ := List.exists_cons_of_ne_nil hlinks
  have hbinary : (e.chain (k :: links)).isBinary = true := isBinary_chain rfl links
  have hchain := leftFrames_chain e (k :: links)
  rw [leftFrames, if_pos hbinary, leftFrames_of_not_isBinary he] at hchain
  rw [hchain, framesAll]
  omega

/-! ### Evaluation with a bound on the nesting -/

/-- What visits end with: nothing if too many of them are nested, or else an outcome. -/
abbrev Visit : Type → Type := ExceptT Fault Option

/-- A visit that ended with an outcome. -/
def ended {α : Type} (x : Except Fault α) : Visit α := ExceptT.mk (some x)

/-- A visit that goes on with an outcome. -/
@[simp] theorem ended_bind_ended {α β : Type} (x : Except Fault α) (f : α → Except Fault β) :
    (ended x >>= fun a => ended (f a)) = ended (x.bind f) := by
  cases x <;> rfl

variable (ops : FloatOps)

/-- Visit the operands of the operators down the left side of an expression, and apply them. -/
def visitSpine (visit : Expr → Visit Value) : Expr → Visit Value
  | binary op l r s => do
    let v ← visitSpine visit l
    let w ← visit r
    ended (op.apply ops s v w)
  | e => visit e

/-- Visit expressions from left to right. -/
def visitAll (visit : Expr → Visit Value) : List Expr → Visit (List Value)
  | [] => pure []
  | e :: es => do
    let v ← visit e
    let vs ← visitAll visit es
    pure (v :: vs)

/-- Evaluate an expression by visits of which no more than a number are nested. -/
def evaluateWithin : Nat → Expr → Visit Value
  | 0, _ => ExceptT.mk none
  | _ + 1, literal v _ => pure v
  | _ + 1, name n s => ended (nameValue n s)
  | depth + 1, binary op l r s => visitSpine ops (evaluateWithin depth) (binary op l r s)
  | depth + 1, signed sg x s => do
    let v ← evaluateWithin depth x
    ended (sg.apply ops s v)
  | depth + 1, call f args s => do
    let vs ← visitAll (evaluateWithin depth) args
    ended (f.apply ops s vs)

variable {ops} {visit : Expr → Visit Value} {depth : Nat}

private theorem visitAll_eq {es : List Expr}
    (h : ∀ e ∈ es, visit e = ended (e.evaluate ops)) :
    visitAll visit es = ended (evaluateAll ops es) := by
  induction es with
  | nil => rfl
  | cons e es ih =>
    rw [visitAll, h e List.mem_cons_self, ih fun a ha => h a (List.mem_cons_of_mem e ha),
      evaluateAll_cons]
    cases e.evaluate ops <;> cases evaluateAll ops es <;> rfl

private theorem visitSpine_eq
    (h : ∀ e : Expr, e.frames ≤ depth → visit e = ended (e.evaluate ops)) {e : Expr}
    (he : e.leftFrames ≤ depth + 1) : visitSpine ops visit e = ended (e.evaluate ops) := by
  induction e with
  | binary op l r s ihl _ =>
    rw [leftFrames_binary, frames_binary] at he
    rw [visitSpine, ihl (by omega), h r (by omega), evaluate_binary]
    cases l.evaluate ops <;> cases r.evaluate ops <;> rfl
  | literal v s | name n s | signed sg x s ih | call f args s ih =>
    rw [leftFrames_of_not_isBinary rfl] at he
    exact h _ (by omega)

/-- As many nested visits as an expression has frames are enough for its evaluation. -/
theorem evaluateWithin_eq (ops : FloatOps) {depth : Nat} {e : Expr} (h : e.frames ≤ depth) :
    e.evaluateWithin ops depth = ended (e.evaluate ops) := by
  induction depth generalizing e with
  | zero => exact absurd (Nat.le_zero.mp h) (Nat.pos_iff_ne_zero.mp e.frames_pos)
  | succ depth ih =>
    cases e with
    | literal v s => rfl
    | name n s => rw [evaluateWithin, evaluate_name]
    | binary op l r s => exact visitSpine_eq (fun e he => ih he) h
    | signed sg x s =>
      rw [frames] at h
      rw [evaluateWithin, ih (by omega), ended_bind_ended, evaluate_signed]
    | call f args s =>
      rw [frames] at h
      have hargs : ∀ e ∈ args, e.evaluateWithin ops depth = ended (e.evaluate ops) := fun e he =>
        ih (by have := frames_le_framesAll he; omega)
      rw [evaluateWithin, visitAll_eq hargs, ended_bind_ended, evaluate_call]

end Reckoner.Expr
