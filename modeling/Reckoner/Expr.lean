import Reckoner.Function
import Reckoner.Scalar
import Reckoner.Token

/-!
# Expressions

An expression is a numeral, a name, two expressions joined by an operator, an expression under a
sign, or a call of a function. Every node carries the span of the token that it stands for: the
literal, the name, the operator or the sign. Two expressions are the same when they differ at most
in their spans.
-/

namespace Reckoner

/-- An operator between two operands. -/
inductive BinaryOp where
  /-- The sum. -/
  | add
  /-- The difference. -/
  | sub
  /-- The product. -/
  | mul
  /-- The quotient. -/
  | div
  /-- The remainder. -/
  | mod
  /-- The power. -/
  | pow
  deriving DecidableEq

/-- The name of an operator. -/
def BinaryOp.name : BinaryOp → String
  | add => "add"
  | sub => "sub"
  | mul => "mul"
  | div => "div"
  | mod => "mod"
  | pow => "pow"

/-- All operators. -/
def BinaryOp.all : List BinaryOp := [.add, .sub, .mul, .div, .mod, .pow]

/-- A sign before an operand. -/
inductive Sign where
  /-- The sign that keeps its operand. -/
  | pos
  /-- The sign that negates its operand. -/
  | neg
  deriving DecidableEq

/-- The name of a sign. -/
def Sign.name : Sign → String
  | pos => "pos"
  | neg => "neg"

/-- All signs. -/
def Sign.all : List Sign := [.pos, .neg]

/-- An arithmetic expression with the spans of its tokens. -/
inductive Expr where
  /-- A numeral. -/
  | literal (value : Value) (span : Span)
  /-- The name of a constant or a variable. -/
  | name (text : String) (span : Span)
  /-- Two operands joined by an operator. -/
  | binary (op : BinaryOp) (left right : Expr) (span : Span)
  /-- An operand under a sign. -/
  | signed (sign : Sign) (operand : Expr) (span : Span)
  /-- A call of a function. -/
  | call (function : Function) (args : List Expr) (span : Span)
  deriving Inhabited

namespace Expr

/-- The span of the token that a node stands for. -/
def span : Expr → Span
  | literal _ s | name _ s | binary _ _ _ s | signed _ _ s | call _ _ s => s

/-- The operands of a node, left to right. -/
def children : Expr → List Expr
  | literal _ _ | name _ _ => []
  | binary _ l r _ => [l, r]
  | signed _ x _ => [x]
  | call _ args _ => args

/-- What a node is called in a tree. -/
def label : Expr → String
  | literal v _ => "number(" ++ v.text ++ ")"
  | name n _ => n
  | binary op _ _ _ => op.name
  | signed s _ _ => s.name
  | call f _ _ => f.name

mutual

/-- The number of nodes of an expression. -/
def size : Expr → Nat
  | literal _ _ => 1
  | name _ _ => 1
  | binary _ l r _ => 1 + (l.size + r.size)
  | signed _ x _ => 1 + x.size
  | call _ args _ => 1 + sizeAll args

/-- The number of nodes of several expressions. -/
def sizeAll : List Expr → Nat
  | [] => 0
  | e :: es => e.size + sizeAll es

end

mutual

/-- The spans of the nodes, each before those of its operands. -/
def spans : Expr → List Span
  | literal _ s => [s]
  | name _ s => [s]
  | binary _ l r s => s :: (l.spans ++ r.spans)
  | signed _ x s => s :: x.spans
  | call _ args s => s :: spansAll args

/-- The spans of the nodes of several expressions. -/
def spansAll : List Expr → List Span
  | [] => []
  | e :: es => e.spans ++ spansAll es

end

mutual

/-- An expression as text on one line, without spans. -/
def shown : Expr → String
  | literal v _ => "Number(" ++ v.shown ++ ")"
  | name n _ => "Variable('" ++ n ++ "')"
  | binary op l r _ => "BinaryOp('" ++ op.name ++ "', " ++ l.shown ++ ", " ++ r.shown ++ ")"
  | signed s x _ => "UnaryOp('" ++ s.name ++ "', " ++ x.shown ++ ")"
  | call f args _ => "FunctionCall('" ++ f.name ++ "', [" ++ String.intercalate ", "
      (shownAll args) ++ "])"

/-- Several expressions as texts. -/
def shownAll : List Expr → List String
  | [] => []
  | e :: es => e.shown :: shownAll es

end

mutual

/-- Whether two expressions differ at most in their spans. -/
def same : Expr → Expr → Bool
  | literal v _, literal w _ => v.same w
  | name m _, name n _ => m == n
  | binary o l r _, binary p l' r' _ => o == p && l.same l' && r.same r'
  | signed s x _, signed t y _ => s == t && x.same y
  | call f as _, call g bs _ => f == g && sameAll as bs
  | _, _ => false

/-- Whether two lists of expressions differ at most in their spans. -/
def sameAll : List Expr → List Expr → Bool
  | [], [] => true
  | a :: as, b :: bs => a.same b && sameAll as bs
  | _, _ => false

end

/-- An expression is its root and its operands. -/
theorem size_eq (e : Expr) : e.size = 1 + sizeAll e.children := by
  cases e <;> simp [size, sizeAll, children]

/-- The sizes of two lists add up. -/
theorem sizeAll_append (as bs : List Expr) : sizeAll (as ++ bs) = sizeAll as + sizeAll bs := by
  induction as with
  | nil => simp [sizeAll]
  | cons a as ih => simp [sizeAll, ih, Nat.add_assoc]

end Expr

end Reckoner
