import Reckoner.Proofs.Evaluation.Recursion

/-!
# The meaning of an expression

The meaning of an expression is stated by plain recursion over its nodes, with a table of the
operators and without steps that wait for a value. Evaluation has the same outcome for every
expression and every choice of the floating-point primitives: the same value or the same fault.
-/

namespace Reckoner

variable (ops : FloatOps)

/-- An exact whole number as a result, which overflows outside 64 bits. -/
def wholeMeaning (operation : String) (s : Span) (n : Int) : Except Fault Value :=
  if h : -9223372036854775808 ≤ n ∧ n ≤ 9223372036854775807 then
    return .integer ⟨n, fitsInteger_iff.mpr h⟩
  else
    throw ⟨.overflow operation, s⟩

/-- The table of the operators. Integers stay integers in the first three rows and are promoted if
the other operand is a double; a remainder asks for integers before it looks at the divisor. -/
def BinaryOp.meaning (s : Span) : BinaryOp → Value → Value → Except Fault Value
  | .add, .integer m, .integer n => wholeMeaning "addition" s (m.val + n.val)
  | .add, v, w => return .float (ops.add (v.toFloat ops) (w.toFloat ops))
  | .sub, .integer m, .integer n => wholeMeaning "subtraction" s (m.val - n.val)
  | .sub, v, w => return .float (ops.sub (v.toFloat ops) (w.toFloat ops))
  | .mul, .integer m, .integer n => wholeMeaning "multiplication" s (m.val * n.val)
  | .mul, v, w => return .float (ops.mul (v.toFloat ops) (w.toFloat ops))
  | .div, v, w => do
    if w.toFloat ops == 0.0 then
      throw ⟨.divisionByZero, s⟩
    return .float (ops.div (v.toFloat ops) (w.toFloat ops))
  | .mod, .integer m, .integer n => do
    if n.val = 0 then
      throw ⟨.divisionByZero, s⟩
    return .integer (m.rem n)
  | .mod, _, _ => throw ⟨.floatModulo, s⟩
  | .pow, v, w => return .float (ops.pow (v.toFloat ops) (w.toFloat ops))

/-- A sign keeps the kind of its operand. -/
def Sign.meaning (s : Span) : Sign → Value → Except Fault Value
  | .pos, v => return v
  | .neg, .integer n => wholeMeaning "negation" s (-n.val)
  | .neg, .float x => return .float (ops.neg x)

/-- The two constants have a value and no other name has one. -/
def nameMeaning (s : Span) (n : String) : Except Fault Value :=
  if n = "pi" then
    return .float Constant.pi.value
  else if n = "e" then
    return .float Constant.e.value
  else
    throw ⟨.unknownVariable n, s⟩

/-- An argument outside the domain of its function is a fault. -/
def Function.checkDomain (f : Function) (s : Span) (x : Float) : Except Fault Unit :=
  match f.domain? with
  | none => return ()
  | some d =>
    if d.holds x then
      return ()
    else
      throw ⟨.invalidArgument f.name (.float x) d.requirement, s⟩

/-- The result of a function for as many arguments as it takes: the magnitude of an integer is an
integer, and else the domain is checked for each argument before the result is computed. -/
def Function.resultMeaning (f : Function) (s : Span) (vs : List Value) (h : vs.length = f.arity) :
    Except Fault Value :=
  match f, vs, h with
  | .abs, [.integer n], _ => wholeMeaning "abs" s n.val.natAbs
  | f, vs, h => do
    (vs.map (Value.toFloat ops)).forM (f.checkDomain s)
    return .float ((f.compute? ops (vs.map (Value.toFloat ops))).get
      ((f.isSome_compute?_iff ops _).mpr (by rwa [List.length_map])))

/-- The arguments of a call are counted before anything is done with them. -/
def Function.meaning (f : Function) (s : Span) (vs : List Value) : Except Fault Value :=
  if h : vs.length = f.arity then
    f.resultMeaning ops s vs h
  else
    throw ⟨.wrongArgumentCount f.name f.arity vs.length, s⟩

mutual

/-- The meaning of an expression: operands first, left before right, and then the node itself. -/
def Expr.meaning : Expr → Except Fault Value
  | .literal v _ => return v
  | .name n s => nameMeaning s n
  | .binary op l r s => do
    let v ← l.meaning
    let w ← r.meaning
    op.meaning ops s v w
  | .signed sg x s => do
    let v ← x.meaning
    sg.meaning ops s v
  | .call f args s => do
    let vs ← meaningAll args
    f.meaning ops s vs

/-- The meanings of expressions, left to right. -/
def Expr.meaningAll : List Expr → Except Fault (List Value)
  | [] => return []
  | e :: es => do
    let v ← e.meaning
    let vs ← meaningAll es
    return v :: vs

end

/-- The checks of an integer result are the same. -/
theorem checkedInteger_eq_meaning (n : Int) (operation : String) (s : Span) :
    checkedInteger n operation s = wholeMeaning operation s n := by
  unfold checkedInteger wholeMeaning Integer.ofInt?
  by_cases h : fitsInteger n = true
  · rw [dif_pos h, dif_pos (fitsInteger_iff.mp h)]
    rfl
  · rw [dif_neg h, dif_neg (fun h' => h (fitsInteger_iff.mpr h'))]
    rfl

/-- Operators are applied as the table says. -/
theorem BinaryOp.apply_eq_meaning (op : BinaryOp) (s : Span) (v w : Value) :
    op.apply ops s v w = op.meaning ops s v w := by
  cases op with
  | add | sub | mul =>
    cases v <;> cases w <;> first | rfl | exact checkedInteger_eq_meaning _ _ _
  | div =>
    simp only [apply, quotient, meaning]
    split <;> rfl
  | mod =>
    cases v <;> cases w <;> rfl
  | pow => rfl

/-- Signs are applied as stated. -/
theorem Sign.apply_eq_meaning (sg : Sign) (s : Span) (v : Value) :
    sg.apply ops s v = sg.meaning ops s v := by
  cases sg with
  | pos => rfl
  | neg =>
    cases v with
    | integer n => exact checkedInteger_eq_meaning _ _ _
    | float x => rfl

/-- Names have the values stated. -/
theorem nameValue_eq_meaning (n : String) (s : Span) : nameValue n s = nameMeaning s n := by
  unfold nameValue nameMeaning
  by_cases hpi : n = "pi"
  · subst hpi
    rfl
  by_cases he : n = "e"
  · subst he
    rfl
  have hnone : Constant.ofName? n = none := by
    simp [Constant.ofName?, Constant.all, Constant.name, Ne.symm hpi, Ne.symm he]
  rw [hnone, if_neg hpi, if_neg he]
  rfl

/-- The first argument outside the domain is the one that is found. -/
private theorem forM_checkDomain (f : Function) (s : Span) (xs : List Float) :
    xs.forM (f.checkDomain s) = match xs.find? fun x => !f.admits x with
      | none => .ok ()
      | some x => .error ⟨.invalidArgument f.name (.float x) f.requirement, s⟩ := by
  induction xs with
  | nil => rfl
  | cons x xs ih =>
    rw [List.forM_eq_forM, List.forM_cons, ← List.forM_eq_forM, List.find?_cons, ih]
    unfold Function.checkDomain Function.admits Function.requirement
    cases f.domain? with
    | none => rfl
    | some d =>
      simp only [Option.elim]
      cases d.holds x <;> rfl

/-- Functions are applied to doubles as stated. -/
private theorem Function.applyFloats_eq (f : Function) (s : Span) (xs : List Float)
    (h : (f.compute? ops xs).isSome = true) :
    f.applyFloats ops s xs = (do
      xs.forM (f.checkDomain s)
      return .float ((f.compute? ops xs).get h)) := by
  rw [forM_checkDomain, applyFloats]
  cases xs.find? fun x => !f.admits x with
  | some x => rfl
  | none =>
    obtain ⟨y, hy⟩ := Option.isSome_iff_exists.mp h
    simp only [hy, Option.get_some]
    rfl

/-- Functions are applied as stated. -/
theorem Function.apply_eq_meaning (f : Function) (s : Span) (vs : List Value) :
    f.apply ops s vs = f.meaning ops s vs := by
  unfold apply meaning
  by_cases h : vs.length = f.arity
  · rw [if_neg (not_not_intro h), dif_pos h]
    cases f with
    | abs =>
      obtain ⟨v, rfl⟩ := List.length_eq_one_iff.mp h
      cases v with
      | integer n => exact checkedInteger_eq_meaning _ _ _
      | float x => exact applyFloats_eq ops _ s _ _
    | _ => exact applyFloats_eq ops _ s _ _
  · rw [if_pos h, dif_neg h]
    rfl

namespace Expr

/-- If the arguments of a call have their meanings as values, so have they together. -/
private theorem evaluateAll_eq_meaningAll {es : List Expr}
    (h : ∀ e ∈ es, e.evaluate ops = e.meaning ops) : evaluateAll ops es = meaningAll ops es := by
  induction es with
  | nil => rfl
  | cons e es ih =>
    rw [evaluateAll_cons, meaningAll, h e List.mem_cons_self,
      ih fun e he => h e (List.mem_cons_of_mem _ he)]
    rfl

/-- Every expression is evaluated to its meaning: the same value, or the same fault at the same
place, whatever the floating-point primitives are. -/
theorem evaluate_eq_meaning (e : Expr) : e.evaluate ops = e.meaning ops := by
  induction e with
  | literal v s => rfl
  | name n s => rw [evaluate_name, meaning, nameValue_eq_meaning]
  | binary op l r s ihl ihr =>
    rw [evaluate_binary, meaning, ihl, ihr]
    simp only [BinaryOp.apply_eq_meaning]
    rfl
  | signed sg x s ih =>
    rw [evaluate_signed, meaning, ih, funext (sg.apply_eq_meaning ops s)]
    rfl
  | call f args s ih =>
    rw [evaluate_call, meaning, evaluateAll_eq_meaningAll ops ih,
      funext (f.apply_eq_meaning ops s)]
    rfl

end Expr

end Reckoner
