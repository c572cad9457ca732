import Reckoner.Expr.Parser
import Reckoner.Proofs.Evaluation.Recursion

/-!
# Spans elsewhere

Tokens, faults and expressions carry spans. When the same tokens stand at other places of a source,
each span is placed anew and nothing else changes. Spans are never looked at, only handed on: an
expression whose spans are placed anew has the same value, or the same fault at the new place.
-/

namespace Reckoner

variable (place : Span → Span)

/-- A token at another place. -/
def Token.relocate (t : Token) : Token := ⟨t.lexeme, place t.span⟩

/-- A token is the same wherever it stands. -/
@[simp] theorem Token.lexeme_relocate (t : Token) : (t.relocate place).lexeme = t.lexeme := rfl

@[simp] theorem Token.name?_relocate (t : Token) : (t.relocate place).name? = t.name? := rfl

/-- A fault at another place. -/
def Fault.relocate (f : Fault) : Fault := ⟨f.cause, place f.span⟩

/-- A stop at another place, if it has one. -/
def Stop.relocate : Stop → Stop
  | .fault f => .fault (f.relocate place)
  | stop => stop

namespace Expr

mutual

/-- An expression with all its spans placed anew. -/
def relocate : Expr → Expr
  | literal v s => literal v (place s)
  | name n s => name n (place s)
  | binary op l r s => binary op l.relocate r.relocate (place s)
  | signed sg x s => signed sg x.relocate (place s)
  | call f args s => call f (relocateAll args) (place s)

/-- Expressions with all their spans placed anew. -/
def relocateAll : List Expr → List Expr
  | [] => []
  | e :: es => e.relocate :: relocateAll es

end

/-- Expressions are placed anew one by one. -/
theorem relocateAll_eq_map (es : List Expr) : relocateAll place es = es.map (relocate place) := by
  induction es with
  | nil => rfl
  | cons e es ih => rw [relocateAll, ih, List.map_cons]

end Expr

/-! ### Places that stay -/

@[simp] theorem Token.relocate_id : Token.relocate id = id := rfl

@[simp] theorem Fault.relocate_id : Fault.relocate id = id := rfl

@[simp] theorem Stop.relocate_id (stop : Stop) : stop.relocate id = stop := by
  cases stop <;> rfl

@[simp] theorem Expr.relocate_id (e : Expr) : e.relocate id = e := by
  induction e with
  | literal v s => rfl
  | name n s => rfl
  | binary op l r s ihl ihr => rw [relocate, ihl, ihr, id]
  | signed sg x s ih => rw [relocate, ih, id]
  | call f args s ih =>
    have hargs : args.map (relocate id) = args := (List.map_congr_left ih).trans (List.map_id' _)
    rw [relocate, relocateAll_eq_map, hargs, id]

/-! ### Evaluation -/

section Outcomes

variable {ε ε' α β : Type} (h : ε → ε')

@[simp] theorem mapError_ok (a : α) : (Except.ok a : Except ε α).mapError h = .ok a := rfl

@[simp] theorem mapError_error (e : ε) : (Except.error e : Except ε α).mapError h = .error (h e) :=
  rfl

/-- Errors that arise one after the other are changed one by one. -/
theorem mapError_bind (x : Except ε α) (f : α → Except ε β) :
    (x.bind f).mapError h = (x.mapError h).bind fun a => (f a).mapError h := by
  cases x <;> rfl

/-- Outcomes that are equal once their errors are changed are one value, or errors that are changed
to one. -/
theorem of_mapError_eq {x y : Except ε α} (hxy : x.mapError h = y.mapError h) :
    (∃ a, x = .ok a ∧ y = .ok a) ∨ ∃ p q, x = .error p ∧ y = .error q ∧ h p = h q := by
  cases x with
  | ok a =>
    cases y with
    | ok b => exact .inl ⟨a, rfl, by rw [Except.ok.inj hxy]⟩
    | error q => cases hxy
  | error p =>
    cases y with
    | ok b => cases hxy
    | error q => exact .inr ⟨p, q, rfl, rfl, Except.error.inj hxy⟩

end Outcomes

variable (ops : FloatOps) (span : Span)

theorem checkedInteger_relocate (n : Int) (operation : String) :
    checkedInteger n operation (place span) =
      (checkedInteger n operation span).mapError (Fault.relocate place) := by
  unfold checkedInteger
  cases Integer.ofInt? n <;> rfl

theorem arithmetic_relocate (onInts : Int → Int → Int) (onFloats : Float → Float → Float)
    (operation : String) (v w : Value) :
    arithmetic ops onInts onFloats operation (place span) v w =
      (arithmetic ops onInts onFloats operation span v w).mapError (Fault.relocate place) := by
  cases v <;> cases w
  · exact checkedInteger_relocate place span _ _
  all_goals rfl

/-- An operator is at fault at its own place. -/
theorem BinaryOp.apply_relocate (op : BinaryOp) (v w : Value) :
    op.apply ops (place span) v w =
      (op.apply ops span v w).mapError (Fault.relocate place) := by
  cases op with
  | add | sub | mul => exact arithmetic_relocate place ops span _ _ _ v w
  | div =>
    simp only [BinaryOp.apply, quotient]
    split <;> rfl
  | mod =>
    cases v <;> cases w
    · simp only [BinaryOp.apply, remainder]
      split <;> rfl
    all_goals rfl
  | pow => rfl

/-- A sign is at fault at its own place. -/
theorem Sign.apply_relocate (sg : Sign) (v : Value) :
    sg.apply ops (place span) v = (sg.apply ops span v).mapError (Fault.relocate place) := by
  cases sg with
  | pos => rfl
  | neg =>
    cases v with
    | integer n => exact checkedInteger_relocate place span _ _
    | float x => rfl

theorem Function.applyFloats_relocate (f : Function) (xs : List Float) :
    f.applyFloats ops (place span) xs =
      (f.applyFloats ops span xs).mapError (Fault.relocate place) := by
  unfold Function.applyFloats
  cases xs.find? fun x => !f.admits x with
  | some x => rfl
  | none => cases f.compute? ops xs <;> rfl

/-- A function is at fault at its own place. -/
theorem Function.apply_relocate (f : Function) (vs : List Value) :
    f.apply ops (place span) vs = (f.apply ops span vs).mapError (Fault.relocate place) := by
  unfold Function.apply
  by_cases h : vs.length ≠ f.arity
  · rw [if_pos h, if_pos h]
    rfl
  · rw [if_neg h, if_neg h]
    split
    · exact checkedInteger_relocate place span _ _
    · exact Function.applyFloats_relocate place ops span f _

theorem nameValue_relocate (n : String) :
    nameValue n (place span) = (nameValue n span).mapError (Fault.relocate place) := by
  unfold nameValue
  cases Constant.ofName? n <;> rfl

namespace Expr

/-- Expressions have the same values wherever each of them has. -/
private theorem evaluateAll_relocate {es : List Expr}
    (h : ∀ e ∈ es, (e.relocate place).evaluate ops =
      (e.evaluate ops).mapError (Fault.relocate place)) :
    evaluateAll ops (es.map (relocate place)) =
      (evaluateAll ops es).mapError (Fault.relocate place) := by
  induction es with
  | nil => rfl
  | cons e es ih =>
    have htail := ih fun a ha => h a (List.mem_cons_of_mem e ha)
    rw [List.map_cons, evaluateAll_cons, evaluateAll_cons, h e List.mem_cons_self, htail,
      mapError_bind]
    simp only [mapError_bind, mapError_ok]

/-- An expression has one value wherever it stands, or one fault at the place of the node that is
to blame. -/
theorem evaluate_relocate (e : Expr) :
    (e.relocate place).evaluate ops = (e.evaluate ops).mapError (Fault.relocate place) := by
  induction e with
  | literal v s => rfl
  | name n s => rw [relocate, evaluate_name, evaluate_name, nameValue_relocate]
  | binary op l r s ihl ihr =>
    rw [relocate, evaluate_binary, evaluate_binary, ihl, ihr]
    simp only [mapError_bind, BinaryOp.apply_relocate]
  | signed sg x s ih =>
    rw [relocate, evaluate_signed, evaluate_signed, ih, mapError_bind]
    congr 1
    funext v
    exact sg.apply_relocate place ops s v
  | call f args s ih =>
    rw [relocate, relocateAll_eq_map, evaluate_call, evaluate_call,
      evaluateAll_relocate place ops ih, mapError_bind]
    congr 1
    funext vs
    exact f.apply_relocate place ops s vs

end Expr

end Reckoner
