import Reckoner.Proofs.Grammar
import Reckoner.Proofs.Parsing.Cursor

/-!
# Chains of operators

Sums and products are read in the same way: an operand of the next level, and further ones after
operators of the level as long as there are any. What is proved about reading them is proved once,
for either of these chains.
-/

namespace Reckoner.Parser

/-- The operators of sums. -/
theorem sumOperator?_eq_some_iff {l : Lexeme} {op : BinaryOp} :
    sumOperator? l = some op ↔ l = .plus ∧ op = .add ∨ l = .minus ∧ op = .sub := by
  cases l <;> simp [sumOperator?, eq_comm]

/-- The operators of products. -/
theorem productOperator?_eq_some_iff {l : Lexeme} {op : BinaryOp} :
    productOperator? l = some op ↔
      l = .times ∧ op = .mul ∨ l = .divide ∧ op = .div ∨ l = .modulo ∧ op = .mod := by
  cases l <;> simp [productOperator?, eq_comm]

/-- The signs. -/
theorem signOf?_eq_some_iff {l : Lexeme} {sg : Sign} :
    signOf? l = some sg ↔ l = .plus ∧ sg = .pos ∨ l = .minus ∧ sg = .neg := by
  cases l <;> simp [signOf?, eq_comm]

/-- A sign does not end the input. -/
theorem ne_eof_of_signOf? {l : Lexeme} {sg : Sign} (h : signOf? l = some sg) : l ≠ .eof := by
  rintro rfl
  cases h

/-- A chain of operators that groups to the left. -/
inductive Chain where
  /-- Products with `+` or `-` between them. -/
  | sum
  /-- Signed operands with `*`, `/` or `%` between them. -/
  | product

namespace Chain

/-- The rule that reads a chain. -/
def rule : Chain → Rule
  | sum => .sum
  | product => .product

/-- The rule that reads what follows the first part of a chain. -/
def after : Chain → Expr → Rule
  | sum => .sumAfter
  | product => .productAfter

/-- The rule that reads an operand. -/
def operand : Chain → Rule
  | sum => .product
  | product => .signed

/-- The operator that a lexeme is in a chain. -/
def operator? : Chain → Lexeme → Option BinaryOp
  | sum => sumOperator?
  | product => productOperator?

/-- The level of a chain. -/
def level : Chain → Level
  | sum => .sum
  | product => .product

/-- The level of the operands. -/
def operandLevel : Chain → Level
  | sum => .product
  | product => .signed

/-- A chain starts with an operand. -/
theorem readWithin_rule (c : Chain) (n : Nat) :
    c.rule.readWithin (n + 1) = (do
      let left ← c.operand.readWithin n
      (c.after left).readWithin n) := by
  cases c <;> rfl

/-- A chain goes on with an operator and an operand, or it ends. -/
theorem readWithin_after (c : Chain) (left : Expr) (n : Nat) :
    (c.after left).readWithin (n + 1) = (do
      let t ← current
      match c.operator? t.lexeme with
      | none => pure left
      | some op => do
        discard advance
        let right ← c.operand.readWithin n
        let e ← allocate (.binary op left right t.span)
        (c.after e).readWithin n) := by
  cases c <;> rfl

variable {c : Chain} {o : Token} {op : BinaryOp} {ts us : List Token} {t l r : Expr} {d e : Nat}

/-- The end of the input is no operator. -/
theorem ne_eof_of_operator? (ho : c.operator? o.lexeme = some op) : o.lexeme ≠ .eof := by
  intro h
  rw [h] at ho
  cases c <;> cases ho

/-- An operand is a chain. -/
theorem derives_operand (h : Derives c.operandLevel ts t d) : Derives c.level ts t d := by
  cases c with
  | sum => exact .product h
  | product => exact .signed h

/-- A chain grows to the right by an operator and an operand. -/
theorem derives_operator (ho : c.operator? o.lexeme = some op) (hl : Derives c.level ts l d)
    (hr : Derives c.operandLevel us r e) :
    Derives c.level (ts ++ o :: us) (.binary op l r o.span) (max d e) := by
  cases c with
  | sum => exact .addSub (sumOperator?_eq_some_iff.mp ho) hl hr
  | product => exact .mulDiv (productOperator?_eq_some_iff.mp ho) hl hr

end Chain

end Reckoner.Parser
