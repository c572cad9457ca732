import Reckoner.Proofs.Evaluation.Recursion
import Mathlib.Data.List.Basic

/-!
# Kinds of expressions

Whether the value of an expression is an integer or a double can be read off the expression before
it is evaluated, and so can whether it asks for the remainder of a double. Evaluation keeps to what
is read: a value is of the kind of the expression, and an expression without a kind has no value.
Since the kind depends on the kinds of the literals alone, so does the kind of the value.
-/

namespace Reckoner

/-- The kinds of values. -/
inductive Kind where
  /-- Integers. -/
  | integer
  /-- Doubles. -/
  | float
  deriving DecidableEq

/-- The kind of a value. -/
def Value.kind : Value → Kind
  | integer _ => .integer
  | float _ => .float

/-- The kind of a sum, a difference or a product: a double on either side makes it a double. -/
def Kind.join : Kind → Kind → Kind
  | integer, integer => integer
  | _, _ => float

/-- The kind of the result of an operator. Only integers have a remainder. -/
def BinaryOp.kind? : BinaryOp → Kind → Kind → Option Kind
  | add, k, l | sub, k, l | mul, k, l => some (k.join l)
  | div, _, _ | pow, _, _ => some .float
  | mod, .integer, .integer => some .integer
  | mod, _, _ => none

/-- The kind of the result of a function: the magnitude is of the kind of its argument. -/
def Function.kind : Function → List Kind → Kind
  | abs, [k] => k
  | _, _ => .float

namespace Expr

mutual

/-- The kind of an expression, unless a part of it asks for the remainder of a double. -/
def kind? : Expr → Option Kind
  | literal v _ => some v.kind
  | name _ _ => some .float
  | binary op l r _ => l.kind?.bind fun k => r.kind?.bind fun k' => op.kind? k k'
  | signed _ x _ => x.kind?
  | call f args _ => (kinds? args).map f.kind

/-- The kinds of several expressions, if each of them has one. -/
def kinds? : List Expr → Option (List Kind)
  | [] => some []
  | e :: es => e.kind?.bind fun k => (kinds? es).bind fun ks => some (k :: ks)

end

end Expr

/-! ### Outcomes that keep to a kind -/

section Outcomes

variable {α β κ κ' : Type} {kindOf : α → κ} {kindOf' : β → κ'}

/-- A result is of the kind that was read, and a remainder of doubles is found only where none
was. -/
def KeepsTo (kindOf : α → κ) (kind? : Option κ) : Except Fault α → Prop
  | .ok a => kind? = some (kindOf a)
  | .error f => f.cause = .floatModulo → kind? = none

/-- What is done with a result keeps to the kind that is read off the kind of the result. -/
theorem KeepsTo.bind {k? : Option κ} {x : Except Fault α} {g : κ → Option κ'}
    {f : α → Except Fault β} (hx : KeepsTo kindOf k? x)
    (hf : ∀ a, KeepsTo kindOf' (g (kindOf a)) (f a)) :
    KeepsTo kindOf' (k?.bind g) (x.bind f) := by
  cases x with
  | ok a =>
    rw [show k? = some (kindOf a) from hx]
    exact hf a
  | error e =>
    intro he
    rw [hx he, Option.bind_none]

/-- A fault for another cause keeps to every kind. -/
theorem KeepsTo.error {k? : Option κ} {f : Fault} (hf : f.cause ≠ .floatModulo) :
    KeepsTo kindOf k? (.error f) := fun h => absurd h hf

end Outcomes

/-- A checked result is an integer. -/
theorem keepsTo_checkedInteger (n : Int) (operation : String) (s : Span) :
    KeepsTo Value.kind (some .integer) (checkedInteger n operation s) := by
  unfold checkedInteger
  split
  · rfl
  · exact .error (by simp)

/-- An operation that is checked on integers gives an integer exactly for two of them. -/
theorem keepsTo_arithmetic (ops : FloatOps) (onInts : Int → Int → Int)
    (onFloats : Float → Float → Float) (operation : String) (s : Span) (v w : Value) :
    KeepsTo Value.kind (some (v.kind.join w.kind))
      (arithmetic ops onInts onFloats operation s v w) := by
  cases v with
  | integer m =>
    cases w with
    | integer n => exact keepsTo_checkedInteger _ _ _
    | float y => rfl
  | float x => rfl

/-- Operators keep to the kinds that their table says. -/
theorem BinaryOp.keepsTo_apply (ops : FloatOps) (op : BinaryOp) (s : Span) (v w : Value) :
    KeepsTo Value.kind (op.kind? v.kind w.kind) (op.apply ops s v w) := by
  cases op with
  | add | sub | mul => exact keepsTo_arithmetic _ _ _ _ _ _ _
  | div =>
    simp only [apply, quotient]
    split
    · exact .error (by simp)
    · rfl
  | mod =>
    cases v with
    | integer m =>
      cases w with
      | integer n =>
        simp only [apply, remainder]
        split
        · exact .error (by simp)
        · rfl
      | float y => exact fun _ => rfl
    | float x => exact fun _ => rfl
  | pow => rfl

/-- Signs keep the kind of their operand. -/
theorem Sign.keepsTo_apply (ops : FloatOps) (sg : Sign) (s : Span) (v : Value) :
    KeepsTo Value.kind (some v.kind) (sg.apply ops s v) := by
  cases sg with
  | pos => rfl
  | neg =>
    cases v with
    | integer n => exact keepsTo_checkedInteger _ _ _
    | float x => rfl

/-- On doubles every function gives a double. -/
theorem Function.keepsTo_applyFloats (ops : FloatOps) (f : Function) (s : Span) (xs : List Float) :
    KeepsTo Value.kind (some .float) (f.applyFloats ops s xs) := by
  unfold applyFloats
  split
  · exact .error (by simp)
  · split
    · rfl
    · exact .error (by simp)

/-- The magnitude keeps the kind of its argument, and every other function gives a double. -/
theorem Function.keepsTo_apply (ops : FloatOps) (f : Function) (s : Span) (vs : List Value) :
    KeepsTo Value.kind (some (f.kind (vs.map Value.kind))) (f.apply ops s vs) := by
  unfold apply
  by_cases hlength : vs.length = f.arity
  · rw [if_neg (not_not_intro hlength)]
    cases f with
    | abs =>
      obtain ⟨v, rfl⟩ := List.length_eq_one_iff.mp hlength
      cases v with
      | integer n => exact keepsTo_checkedInteger _ _ _
      | float x => exact keepsTo_applyFloats ops _ s _
    | _ => exact keepsTo_applyFloats ops _ s _
  · rw [if_pos hlength]
    exact .error (by simp)

/-- Names stand for doubles. -/
theorem keepsTo_nameValue (n : String) (s : Span) :
    KeepsTo Value.kind (some .float) (nameValue n s) := by
  unfold nameValue
  split
  · rfl
  · exact .error (by simp)

namespace Expr

variable (ops : FloatOps)

/-- If the arguments of a call keep to their kinds, so do they together. -/
private theorem keepsTo_evaluateAll {es : List Expr}
    (h : ∀ e ∈ es, KeepsTo Value.kind e.kind? (e.evaluate ops)) :
    KeepsTo (List.map Value.kind) (kinds? es) (evaluateAll ops es) := by
  induction es with
  | nil => rfl
  | cons e es ih =>
    rw [List.forall_mem_cons] at h
    rw [kinds?, evaluateAll_cons]
    exact h.1.bind fun v => (ih h.2).bind fun vs => rfl

/-- Evaluation keeps to the kind of the expression. -/
theorem keepsTo_evaluate (e : Expr) : KeepsTo Value.kind e.kind? (e.evaluate ops) := by
  induction e with
  | literal v s => rfl
  | name n s =>
    rw [evaluate_name]
    exact keepsTo_nameValue n s
  | binary op l r s ihl ihr =>
    rw [kind?, evaluate_binary]
    exact ihl.bind fun v => ihr.bind fun w => op.keepsTo_apply ops s v w
  | signed sg x s ih =>
    rw [kind?, evaluate_signed, ← Option.bind_fun_some x.kind?]
    exact ih.bind fun v => sg.keepsTo_apply ops s v
  | call f args s ih =>
    rw [kind?, evaluate_call, Option.map_eq_bind]
    exact (keepsTo_evaluateAll ops ih).bind fun vs => f.keepsTo_apply ops s vs

end Expr

/-! ### What the literals are does not matter -/

/-- Zero is within the bounds of the integers. -/
theorem fitsInteger_zero : fitsInteger 0 = true := rfl

/-- The zero of the kind of a value. -/
def Value.zeroed : Value → Value
  | integer _ => integer ⟨0, fitsInteger_zero⟩
  | float _ => float 0.0

@[simp] theorem Value.kind_zeroed (v : Value) : v.zeroed.kind = v.kind := by
  cases v <;> rfl

theorem Value.isInteger_iff (v : Value) : v.isInteger = true ↔ v.kind = .integer := by
  cases v <;> simp [isInteger, kind]

namespace Expr

mutual

/-- An expression without its places, in which every literal is the zero of its kind. -/
def zeroed : Expr → Expr
  | literal v _ => literal v.zeroed default
  | name n _ => name n default
  | binary op l r _ => binary op l.zeroed r.zeroed default
  | signed sg x _ => signed sg x.zeroed default
  | call f args _ => call f (zeroedAll args) default

/-- Expressions without their places, in which every literal is the zero of its kind. -/
def zeroedAll : List Expr → List Expr
  | [] => []
  | e :: es => e.zeroed :: zeroedAll es

end

private theorem kinds?_zeroedAll {es : List Expr} (h : ∀ e ∈ es, e.zeroed.kind? = e.kind?) :
    kinds? (zeroedAll es) = kinds? es := by
  induction es with
  | nil => rfl
  | cons e es ih =>
    rw [List.forall_mem_cons] at h
    rw [zeroedAll, kinds?, kinds?, h.1, ih h.2]

/-- Neither places nor the values of literals have a part in the kind. -/
theorem kind?_zeroed (e : Expr) : e.zeroed.kind? = e.kind? := by
  induction e with
  | literal v s => rw [zeroed, kind?, kind?, Value.kind_zeroed]
  | name n s => rfl
  | binary op l r s ihl ihr => rw [zeroed, kind?, kind?, ihl, ihr]
  | signed sg x s ih => rw [zeroed, kind?, kind?, ih]
  | call f args s ih => rw [zeroed, kind?, kind?, kinds?_zeroedAll ih]

/-- An expression that has a value has a kind, which is the kind of the value, and the remainder of
a double is found only in an expression without a kind. So the values of two expressions that differ
in the values of their literals, in their places and in the floating-point primitives only are of
one kind. -/
theorem kind?_of_evaluate (ops : FloatOps) (e : Expr) :
    (∀ v, e.evaluate ops = .ok v →
      ∃ k, e.kind? = some k ∧ (v.isInteger = true ↔ k = .integer)) ∧
    (∀ s, e.evaluate ops = .error ⟨.floatModulo, s⟩ → e.kind? = none) ∧
    ∀ (ops' : FloatOps) (e' : Expr) (v v' : Value), e.zeroed = e'.zeroed →
      e.evaluate ops = .ok v → e'.evaluate ops' = .ok v' → v.isInteger = v'.isInteger := by
  have hvalue (ops : FloatOps) (e : Expr) (v : Value) (h : e.evaluate ops = .ok v) :
      e.kind? = some v.kind := by
    have hkeeps := keepsTo_evaluate ops e
    rwa [h] at hkeeps
  refine ⟨fun v h => ⟨v.kind, hvalue ops e v h, v.isInteger_iff⟩, fun s h => ?_,
    fun ops' e' v v' he h h' => ?_⟩
  · have hkeeps := keepsTo_evaluate ops e
    rw [h] at hkeeps
    exact hkeeps rfl
  · have hkind : some v.kind = some v'.kind := by
      rw [← hvalue ops e v h, ← hvalue ops' e' v' h', ← kind?_zeroed e, he, kind?_zeroed]
    rw [Bool.eq_iff_iff, v.isInteger_iff, v'.isInteger_iff, Option.some.inj hkind]

/-- `v % abs(-w)` with two literals. -/
private def remainderByMagnitude (v w : Value) : Expr :=
  binary .mod (literal v ⟨0, 1⟩)
    (call .abs [signed .neg (literal w ⟨9, 10⟩) ⟨8, 9⟩] ⟨4, 7⟩) ⟨2, 3⟩

/-- `7 % abs(-2)` and `9 % abs(-4)` both have integers for their values, and `7 % abs(-2.5)`, which
asks for the remainder of a double, has no kind. -/
theorem kind?_remainderByMagnitude :
    (∃ v v' k,
      (remainderByMagnitude (.integer ⟨7, rfl⟩) (.integer ⟨2, rfl⟩)).evaluate .machine = .ok v ∧
      (remainderByMagnitude (.integer ⟨9, rfl⟩) (.integer ⟨4, rfl⟩)).evaluate .machine = .ok v' ∧
      (remainderByMagnitude (.integer ⟨7, rfl⟩) (.integer ⟨2, rfl⟩)).kind? = some k ∧
      (v.isInteger = true ↔ k = .integer) ∧ v.isInteger = v'.isInteger) ∧
    (remainderByMagnitude (.integer ⟨7, rfl⟩) (.float 2.5)).evaluate .machine =
      .error ⟨.floatModulo, ⟨2, 3⟩⟩ ∧
    (remainderByMagnitude (.integer ⟨7, rfl⟩) (.float 2.5)).kind? = none := by
  have hvalue : (remainderByMagnitude (.integer ⟨7, rfl⟩) (.integer ⟨2, rfl⟩)).evaluate .machine =
      .ok (.integer ⟨1, rfl⟩) := by decide +kernel
  have hother : (remainderByMagnitude (.integer ⟨9, rfl⟩) (.integer ⟨4, rfl⟩)).evaluate .machine =
      .ok (.integer ⟨1, rfl⟩) := by decide +kernel
  have hfault : (remainderByMagnitude (.integer ⟨7, rfl⟩) (.float 2.5)).evaluate .machine =
      .error ⟨.floatModulo, ⟨2, 3⟩⟩ := by decide +kernel
  obtain ⟨hkind, -, hsame⟩ := kind?_of_evaluate .machine _
  obtain ⟨k, hk, hinteger⟩ := hkind _ hvalue
  exact ⟨⟨_, _, k, hvalue, hother, hk, hinteger, hsame .machine _ _ _ rfl hvalue hother⟩, hfault,
    (kind?_of_evaluate .machine _).2.1 _ hfault⟩

end Expr

end Reckoner
