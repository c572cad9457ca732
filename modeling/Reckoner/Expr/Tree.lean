import Reckoner.Expr

/-!
# Expressions as trees

A tree has one line for each node, in the order in which the nodes are written, with guide bars
that show which lines belong to one operand. The operands that still have to be drawn stand on a
stack with the bars to their left, so that a long chain of operators needs no deep recursion.
-/

namespace Reckoner

/-- A node that still has to be drawn. -/
structure Branch where
  /-- The node. -/
  node : Expr
  /-- The guide bars to its left. -/
  bars : String
  /-- Whether it is the last operand of its parent. -/
  last : Bool

namespace Branch

/-- The line of a branch. -/
def line (b : Branch) : String :=
  b.bars ++ (if b.last then "└── " else "├── ") ++ b.node.label

/-- The bars to the left of the operands of a branch. -/
def innerBars (b : Branch) : String := b.bars ++ (if b.last then "    " else "│   ")

/-- The operands of one node as branches, of which the last is marked. -/
def ofChildren (bars : String) : List Expr → List Branch
  | [] => []
  | [e] => [⟨e, bars, true⟩]
  | e :: es => ⟨e, bars, false⟩ :: ofChildren bars es

/-- Marking the operands keeps them and their order. -/
theorem map_node_ofChildren (bars : String) (es : List Expr) :
    (ofChildren bars es).map node = es := by
  fun_induction ofChildren bars es with
  | case1 => rfl
  | case2 e => rfl
  | case3 e es _ ih => simp [ih]

end Branch

/-- The lines of the branches on a stack, each followed by those of its operands. -/
def branchLines : List Branch → List String
  | [] => []
  | b :: rest =>
    b.line :: branchLines (Branch.ofChildren b.innerBars b.node.children ++ rest)
termination_by stack => Expr.sizeAll (stack.map Branch.node)
decreasing_by
  simp only [List.map_append, Branch.map_node_ofChildren, Expr.sizeAll_append, List.map_cons,
    Expr.sizeAll]
  have h := Expr.size_eq b.node
  omega

/-- An expression as a tree. -/
def Expr.tree (e : Expr) : String :=
  String.intercalate "\n" (e.label :: branchLines (Branch.ofChildren "" e.children))

/-- A stack of branches has one line for each of their nodes. -/
theorem length_branchLines (stack : List Branch) :
    (branchLines stack).length = Expr.sizeAll (stack.map Branch.node) := by
  fun_induction branchLines stack with
  | case1 => rfl
  | case2 b rest ih =>
    have h := Expr.size_eq b.node
    simp only [List.length_cons, ih, List.map_append, Branch.map_node_ofChildren,
      Expr.sizeAll_append, List.map_cons, Expr.sizeAll]
    omega

end Reckoner
