import Reckoner.Proofs.Evaluation.Recursion

/-!
# Evaluation of whole numbers is exact

An expression that is made of integers by signs, sums, differences, products, remainders and
magnitudes has a value among all whole numbers. Evaluation gives exactly this value if no node
leaves the 64-bit range and no remainder has the divisor zero; else the first node in post-order
that does is to blame. No double can arise.
-/

namespace Reckoner

/-- The operators that take whole numbers to whole numbers. -/
inductive WholeOp where
  /-- The sum. -/
  | add
  /-- The difference. -/
  | sub
  /-- The product. -/
  | mul
  /-- The remainder. -/
  | mod
  deriving DecidableEq

namespace WholeOp

/-- The operator of an expression. -/
def toOp : WholeOp → BinaryOp
  | add => .add
  | sub => .sub
  | mul => .mul
  | mod => .mod

/-- The result among all whole numbers; a remainder is that of the truncated division. -/
def exact : WholeOp → Int → Int → Int
  | add, a, b => a + b
  | sub, a, b => a - b
  | mul, a, b => a * b
  | mod, a, b => a.tmod b

/-- The name of an operator that can overflow. -/
def operation? : WholeOp → Option String
  | add => some "addition"
  | sub => some "subtraction"
  | mul => some "multiplication"
  | mod => none

end WholeOp

/-- An expression of whole numbers. -/
inductive WholeExpr where
  /-- An integer. -/
  | literal (n : Integer) (span : Span)
  /-- Two operands joined by an operator. -/
  | binary (op : WholeOp) (left right : WholeExpr) (span : Span)
  /-- An operand under a sign. -/
  | signed (sign : Sign) (operand : WholeExpr) (span : Span)
  /-- The magnitude of an argument. -/
  | abs (argument : WholeExpr) (span : Span)

/-- Whether a whole number lies in the range of the 64-bit integers: from minus the 63rd power of
two to one less than it. -/
def InRange (n : Int) : Prop := -9223372036854775808 ≤ n ∧ n ≤ 9223372036854775807

instance (n : Int) : Decidable (InRange n) := inferInstanceAs (Decidable (_ ∧ _))

theorem inRange_iff {n : Int} : InRange n ↔ fitsInteger n = true := fitsInteger_iff.symm

/-- A number is the remainder of the truncated division of two others: its magnitude is below that
of the divisor, and it is zero or has the sign of the dividend. -/
def IsTruncatedRemainder (a b r : Int) : Prop :=
  (∃ q, a = q * b + r) ∧ r.natAbs < b.natAbs ∧ (r = 0 ∨ r.sign = a.sign)

namespace WholeExpr

/-- The expression as it is evaluated. -/
def toExpr : WholeExpr → Expr
  | literal n s => .literal (.integer n) s
  | binary op l r s => .binary op.toOp l.toExpr r.toExpr s
  | signed sg x s => .signed sg x.toExpr s
  | abs x s => .call .abs [x.toExpr] s

/-- The span of the token that a node stands for. -/
def span : WholeExpr → Span
  | literal _ s | binary _ _ _ s | signed _ _ s | abs _ s => s

/-- The value among all whole numbers. -/
def exact : WholeExpr → Int
  | literal n _ => n.val
  | binary op l r _ => op.exact l.exact r.exact
  | signed .pos x _ => x.exact
  | signed .neg x _ => -x.exact
  | abs x _ => x.exact.natAbs

/-- The nodes of an expression, each after its operands and these from left to right. -/
def postorder : WholeExpr → List WholeExpr
  | literal n s => [literal n s]
  | binary op l r s => l.postorder ++ (r.postorder ++ [binary op l r s])
  | signed sg x s => x.postorder ++ [signed sg x s]
  | abs x s => x.postorder ++ [abs x s]

/-- Whether a node is a remainder whose divisor is zero. -/
def dividesByZero : WholeExpr → Bool
  | binary .mod _ r _ => r.exact == 0
  | _ => false

/-- The name of what a node does, if it can overflow. -/
def operation? : WholeExpr → Option String
  | binary op _ _ _ => op.operation?
  | signed .neg _ _ => some "negation"
  | abs _ _ => some "abs"
  | _ => none

/-- Whether a node divides by zero or leaves the range. -/
def offends (e : WholeExpr) : Bool := e.dividesByZero || !decide (InRange e.exact)

/-- The fault that a node is to blame for: a remainder by zero keeps the range, and a node that
leaves it has a name for what it does. -/
def Blames (e : WholeExpr) (f : Fault) : Prop :=
  InRange e.exact ∧ f = ⟨.divisionByZero, e.span⟩ ∨
    e.dividesByZero = false ∧ ∃ o, e.operation? = some o ∧ f = ⟨.overflow o, e.span⟩

/-- A value is the exact one. -/
def HasValue (e : WholeExpr) (v : Value) : Prop := ∃ n : Integer, n.val = e.exact ∧ v = .integer n

/-- An outcome is the one that some nodes call for when they are visited in order: the first of
them that offends is to blame, and without one there is a value with a property. -/
def Settles {α : Type} (nodes : List WholeExpr) (P : α → Prop) : Except Fault α → Prop
  | .ok a => nodes.find? offends = none ∧ P a
  | .error f => ∃ x, nodes.find? offends = some x ∧ x.Blames f

/-- Nodes that are visited one after the other settle an outcome one after the other. -/
theorem Settles.bind {α β : Type} {xs ys : List WholeExpr} {P : α → Prop} {Q : β → Prop}
    {a : Except Fault α} {k : α → Except Fault β} (ha : Settles xs P a)
    (hk : ∀ v, P v → Settles ys Q (k v)) : Settles (xs ++ ys) Q (a.bind k) := by
  cases a with
  | error f =>
    obtain ⟨x, hx, hf⟩ := ha
    exact ⟨x, by rw [List.find?_append, hx, Option.some_or], hf⟩
  | ok v =>
    obtain ⟨hx, hv⟩ := ha
    have hk := hk v hv
    rw [ok_bind]
    cases hkv : k v with
    | error f =>
      rw [hkv] at hk
      obtain ⟨y, hy, hf⟩ := hk
      exact ⟨y, by rw [List.find?_append, hx, hy, Option.none_or], hf⟩
    | ok w =>
      rw [hkv] at hk
      exact ⟨by rw [List.find?_append, hx, hk.1, Option.none_or], hk.2⟩

/-- A value within the range is the outcome of a node that has it. -/
theorem settles_value {e : WholeExpr} {n : Integer} (hn : n.val = e.exact)
    (hz : e.dividesByZero = false) : Settles [e] e.HasValue (.ok (.integer n)) := by
  have hfits : InRange e.exact := hn ▸ inRange_iff.mpr n.fits
  exact ⟨by simp [offends, hz, hfits], n, hn, rfl⟩

/-- A checked result is the outcome of a node that can overflow. -/
theorem settles_checked {e : WholeExpr} {o : String} (ho : e.operation? = some o)
    (hz : e.dividesByZero = false) :
    Settles [e] e.HasValue (checkedInteger e.exact o e.span) := by
  rw [checkedInteger]
  cases hn : Integer.ofInt? e.exact with
  | some n => exact settles_value (Integer.val_of_ofInt? hn) hz
  | none =>
    have hout : ¬InRange e.exact := by
      intro hin
      rw [inRange_iff] at hin
      simp [Integer.ofInt?, hin] at hn
    exact ⟨e, by simp [offends, hout], .inr ⟨hz, o, ho, rfl⟩⟩

/-- An operator settles the outcome of its node. -/
theorem settles_binary (ops : FloatOps) (op : WholeOp) {l r : WholeExpr} (s : Span) {v w : Value}
    (hv : l.HasValue v) (hw : r.HasValue w) :
    Settles [binary op l r s] (binary op l r s).HasValue (op.toOp.apply ops s v w) := by
  obtain ⟨m, hm, rfl⟩ := hv
  obtain ⟨n, hn, rfl⟩ := hw
  cases op with
  | add =>
    have h := settles_checked (e := binary .add l r s) rfl rfl
    rwa [exact, ← hm, ← hn] at h
  | sub =>
    have h := settles_checked (e := binary .sub l r s) rfl rfl
    rwa [exact, ← hm, ← hn] at h
  | mul =>
    have h := settles_checked (e := binary .mul l r s) rfl rfl
    rwa [exact, ← hm, ← hn] at h
  | mod =>
    simp only [WholeOp.toOp, BinaryOp.apply, remainder]
    by_cases hz : n.val = 0
    · have hd : (binary .mod l r s).dividesByZero = true := by simp [dividesByZero, ← hn, hz]
      have hin : InRange (binary .mod l r s).exact := by
        rw [exact, ← hm, ← hn, hz, WholeOp.exact, Int.tmod_zero]
        exact inRange_iff.mpr m.fits
      rw [if_pos hz]
      exact ⟨_, by simp [offends, hd], .inl ⟨hin, rfl⟩⟩
    · rw [if_neg hz]
      exact settles_value (by rw [exact, ← hm, ← hn]; rfl) (by simp [dividesByZero, ← hn, hz])

/-- A sign settles the outcome of its node. -/
theorem settles_signed (ops : FloatOps) (sg : Sign) {x : WholeExpr} (s : Span) {v : Value}
    (hv : x.HasValue v) :
    Settles [signed sg x s] (signed sg x s).HasValue (sg.apply ops s v) := by
  obtain ⟨n, hn, rfl⟩ := hv
  cases sg with
  | pos => exact settles_value (by rw [exact, hn]) rfl
  | neg =>
    have h := settles_checked (e := signed .neg x s) rfl rfl
    rwa [exact, ← hn] at h

/-- The magnitude settles the outcome of its node. -/
theorem settles_abs (ops : FloatOps) {x : WholeExpr} (s : Span) {vs : List Value}
    (hvs : ∃ v, x.HasValue v ∧ vs = [v]) :
    Settles [abs x s] (abs x s).HasValue (Function.abs.apply ops s vs) := by
  obtain ⟨_, ⟨n, hn, rfl⟩, rfl⟩ := hvs
  have h := settles_checked (e := abs x s) rfl rfl
  rwa [exact, ← hn] at h

/-- The nodes of an expression, visited in post-order, settle its outcome. -/
theorem settles_evaluate (ops : FloatOps) (e : WholeExpr) :
    Settles e.postorder e.HasValue (e.toExpr.evaluate ops) := by
  induction e with
  | literal n s => exact settles_value rfl rfl
  | binary op l r s ihl ihr =>
    rw [toExpr, Expr.evaluate_binary]
    exact ihl.bind fun v hv => ihr.bind fun w hw => settles_binary ops op s hv hw
  | signed sg x s ih =>
    rw [toExpr, Expr.evaluate_signed]
    exact ih.bind fun v hv => settles_signed ops sg s hv
  | abs x s ih =>
    rw [toExpr, Expr.evaluate_call, Expr.evaluateAll_cons, Expr.evaluateAll_nil, bind_assoc]
    exact ih.bind fun v hv => settles_abs ops s ⟨v, hv, rfl⟩

/-- The operator `%` of the whole numbers is the truncated remainder. -/
theorem isTruncatedRemainder_exact (a : Int) {b : Int} (hb : b ≠ 0) :
    IsTruncatedRemainder a b (WholeOp.mod.exact a b) := by
  refine ⟨⟨a.tdiv b, (Int.tdiv_mul_add_tmod a b).symm⟩, ?_, ?_⟩
  · rw [WholeOp.exact, Int.natAbs_tmod]
    exact Nat.mod_lt _ (Int.natAbs_pos.mpr hb)
  · rw [WholeOp.exact, Int.sign_tmod]
    by_cases h : b ∣ a
    · exact .inl (Int.tmod_eq_zero_of_dvd h)
    · exact .inr (if_neg h)

/-- A node that offends where none before it does is the first to offend. -/
private theorem find?_offends {nodes before after : List WholeExpr} {x : WholeExpr}
    (h : nodes = before ++ x :: after)
    (hbefore : ∀ y ∈ before, InRange y.exact ∧ y.dividesByZero = false) (hx : x.offends = true) :
    nodes.find? offends = some x := by
  refine List.find?_eq_some_iff_append.mpr ⟨hx, before, after, h, fun y hy => ?_⟩
  simp [offends, hbefore y hy]

/-- The first node to offend is to blame for the fault that evaluation ends with. -/
private theorem blames_evaluate (ops : FloatOps) {e x : WholeExpr}
    (hx : e.postorder.find? offends = some x) :
    ∃ f, x.Blames f ∧ e.toExpr.evaluate ops = .error f := by
  have h := settles_evaluate ops e
  cases hv : e.toExpr.evaluate ops with
  | error f =>
    rw [hv] at h
    obtain ⟨y, hy, hf⟩ := h
    obtain rfl : x = y := Option.some.inj (hx.symm.trans hy)
    exact ⟨f, hf, rfl⟩
  | ok v =>
    rw [hv] at h
    rw [h.1] at hx
    cases hx

/-- Evaluation of an expression of whole numbers. If all nodes stay in the range and no divisor is
zero, the result is the exact integer. Else the first node in post-order that leaves the range or
divides by zero is to blame, and by the name of what it does. No double is a result. A remainder is
that of the truncated division and never leaves the range. -/
theorem evaluate_toExpr (ops : FloatOps) (e : WholeExpr) :
    ((∀ x ∈ e.postorder, InRange x.exact ∧ x.dividesByZero = false) →
      ∃ n : Integer, n.val = e.exact ∧ e.toExpr.evaluate ops = .ok (.integer n)) ∧
    (∀ before x after, e.postorder = before ++ x :: after →
      (∀ y ∈ before, InRange y.exact ∧ y.dividesByZero = false) →
      (x.dividesByZero = true → e.toExpr.evaluate ops = .error ⟨.divisionByZero, x.span⟩) ∧
      (¬InRange x.exact → ∃ o, x.operation? = some o ∧
        e.toExpr.evaluate ops = .error ⟨.overflow o, x.span⟩)) ∧
    (∀ y, e.toExpr.evaluate ops ≠ .ok (.float y)) ∧
    ∀ a b : Int, b ≠ 0 → IsTruncatedRemainder a b (WholeOp.mod.exact a b) ∧
      (InRange a → InRange b → InRange (WholeOp.mod.exact a b)) := by
  have h := settles_evaluate ops e
  refine ⟨fun hall => ?_, fun before x after hpost hbefore => ?_, fun y hy => ?_, fun a b hb => ?_⟩
  · have hnone : e.postorder.find? offends = none := by
      refine List.find?_eq_none.mpr fun x hx => ?_
      simp [offends, hall x hx]
    cases hv : e.toExpr.evaluate ops with
    | error f =>
      rw [hv] at h
      obtain ⟨x, hx, -⟩ := h
      rw [hnone] at hx
      cases hx
    | ok v =>
      rw [hv] at h
      obtain ⟨-, n, hn, rfl⟩ := h
      exact ⟨n, hn, rfl⟩
  · refine ⟨fun hx => ?_, fun hx => ?_⟩
    · obtain ⟨f, ⟨-, rfl⟩ | ⟨hz, -⟩, hf⟩ :=
        blames_evaluate ops (find?_offends hpost hbefore (by simp [offends, hx]))
      · exact hf
      · rw [hx] at hz
        cases hz
    · obtain ⟨f, ⟨hin, -⟩ | ⟨-, o, ho, rfl⟩, hf⟩ :=
        blames_evaluate ops (find?_offends hpost hbefore (by simp [offends, hx]))
      · exact absurd hin hx
      · exact ⟨o, ho, hf⟩
  · rw [hy] at h
    obtain ⟨-, n, -, hn⟩ := h
    cases hn
  · refine ⟨isTruncatedRemainder_exact a hb, fun ha hb => ?_⟩
    rw [inRange_iff] at *
    exact fitsInteger_tmod ha hb

/-- The sum `9223372036854775807 + 1`. -/
private def greatestAddOne : WholeExpr :=
  binary .add (literal ⟨greatestInteger, rfl⟩ ⟨0, 19⟩) (literal ⟨1, rfl⟩ ⟨22, 23⟩) ⟨20, 21⟩

/-- One more than the greatest integer leaves the range at the operator. -/
theorem evaluate_greatestAddOne : greatestAddOne.toExpr.evaluate FloatOps.machine =
    .error ⟨.overflow "addition", ⟨20, 21⟩⟩ := by
  have hbefore : ∀ y ∈ greatestAddOne.postorder.dropLast,
      InRange y.exact ∧ y.dividesByZero = false := by decide
  obtain ⟨_, ho, h⟩ := ((evaluate_toExpr FloatOps.machine greatestAddOne).2.1 _ greatestAddOne []
    rfl hbefore).2 (by decide)
  cases ho
  exact h

end WholeExpr

end Reckoner
