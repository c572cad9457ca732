import Reckoner.Expr.Tree
import Reckoner.Proofs.Rendering.Rows
import Reckoner.Proofs.Rendering.Wordings

/-!
# Drawing trees

The outline of an expression is its shape with the labels of its nodes. It is drawn by recursion: a
label, and below it the drawings of the operands, of which each hangs on a connector with a guide
under it. The stack of branches gives the same lines, since each branch on it stands for all lines
of its operand, and these are drawn where the branch stands. The lines are those of the nodes in
the order of the text, a node before its operands.
-/

namespace Reckoner

/-- A tree of labels. -/
inductive Outline where
  /-- A node with the outlines of its operands, left to right. -/
  | node (label : String) (operands : List Outline)

namespace Expr

mutual

/-- The shape of an expression with the labels of its nodes. -/
def outline : Expr → Outline
  | literal v s => .node (literal v s).label []
  | name n s => .node (name n s).label []
  | binary op l r s => .node (binary op l r s).label [l.outline, r.outline]
  | signed sg x s => .node (signed sg x s).label [x.outline]
  | call f args s => .node (call f args s).label (outlineAll args)

/-- The outlines of several expressions. -/
def outlineAll : List Expr → List Outline
  | [] => []
  | e :: es => e.outline :: outlineAll es

end

theorem outlineAll_eq_map (es : List Expr) : outlineAll es = es.map outline := by
  induction es with
  | nil => rfl
  | cons e es ih => rw [outlineAll, ih, List.map_cons]

/-- The outline of an expression is its label over the outlines of its operands. -/
theorem outline_eq (e : Expr) : e.outline = .node e.label (e.children.map outline) := by
  cases e <;> simp [outline, outlineAll_eq_map, children]

end Expr

/-! ### Drawing by recursion -/

/-- What joins the first line of an operand to its parent. -/
def connector (last : Bool) : String := if last then "└── " else "├── "

/-- What stands before the other lines of an operand. -/
def guide (last : Bool) : String := if last then "    " else "│   "

/-- The lines of an operand that hangs on its parent. -/
def hang (last : Bool) : List String → List String
  | [] => []
  | line :: lines => (connector last ++ line) :: lines.map (guide last ++ ·)

namespace Outline

mutual

/-- The lines of a tree: its label, and below it the lines of its operands. -/
def drawn : Outline → List String
  | node label operands => label :: drawnAll operands

/-- The lines of the operands of one node, which all hang on it. -/
def drawnAll : List Outline → List String
  | [] => []
  | t :: ts => hang ts.isEmpty t.drawn ++ drawnAll ts

end

mutual

/-- The labels of a tree with their depths, each before those of its operands. -/
def preorder : Outline → List (Nat × String)
  | node label operands => (0, label) :: (preorderAll operands).map (Prod.map Nat.succ id)

/-- The labels of several trees with their depths. -/
def preorderAll : List Outline → List (Nat × String)
  | [] => []
  | t :: ts => t.preorder ++ preorderAll ts

end

end Outline

/-! ### Drawing with a stack -/

namespace Branch

/-- The lines that a branch stands for. -/
def drawn (b : Branch) : List String := (hang b.last b.node.outline.drawn).map (b.bars ++ ·)

/-- The operands of a node stand for their drawings behind its bars. -/
theorem drawn_ofChildren (bars : String) (es : List Expr) :
    (ofChildren bars es).flatMap drawn =
      (Outline.drawnAll (es.map Expr.outline)).map (bars ++ ·) := by
  fun_induction ofChildren bars es with
  | case1 => rfl
  | case2 e => simp [drawn, Outline.drawnAll]
  | case3 e es hne ih =>
    have hlast : (es.map Expr.outline).isEmpty = false := by
      cases es with
      | nil => exact absurd rfl hne
      | cons => rfl
    rw [List.flatMap_cons, ih, List.map_cons, Outline.drawnAll, hlast, List.map_append]
    rfl

/-- A branch stands for its own line and for its operands behind its inner bars. -/
theorem drawn_eq (b : Branch) :
    b.drawn = b.line :: (ofChildren b.innerBars b.node.children).flatMap drawn := by
  have hguide : ((b.bars ++ ·) : String → String) ∘ (guide b.last ++ ·) = (b.innerBars ++ ·) := by
    funext line
    simp [innerBars, guide, String.append_assoc]
  rw [drawn_ofChildren, drawn, Expr.outline_eq, Outline.drawn, hang, List.map_cons, List.map_map,
    hguide]
  simp [line, connector, String.append_assoc]

end Branch

/-- A stack is drawn branch by branch. -/
theorem branchLines_eq (stack : List Branch) : branchLines stack = stack.flatMap Branch.drawn := by
  fun_induction branchLines stack with
  | case1 => rfl
  | case2 b rest ih =>
    rw [ih, List.flatMap_append, List.flatMap_cons, b.drawn_eq, List.cons_append]

namespace Expr

/-- The label of the root and the lines of the branches below it are the drawing. -/
theorem drawn_outline (e : Expr) :
    e.outline.drawn = e.label :: branchLines (Branch.ofChildren "" e.children) := by
  have hbars : ((("" : String) ++ ·) : String → String) = id := by
    funext line
    simp
  rw [branchLines_eq, Branch.drawn_ofChildren, outline_eq, Outline.drawn, hbars, List.map_id]

/-- The tree of an expression is its drawing by recursion. -/
theorem tree_eq (e : Expr) : e.tree = String.intercalate "\n" e.outline.drawn := by
  rw [tree, drawn_outline]

/-- An expression is drawn with as many lines as it has nodes. -/
theorem length_drawn_outline (e : Expr) : e.outline.drawn.length = e.size := by
  rw [drawn_outline, List.length_cons, length_branchLines, Branch.map_node_ofChildren, size_eq,
    Nat.add_comm]

end Expr

/-! ### One line for each node -/

/-- A line of a node: bars that are as wide as the node is deep, and its label. -/
def IsLineOf (line : String) (n : Nat × String) : Prop :=
  ∃ bars : String, bars.length = 4 * n.1 ∧ IsRow bars ∧ line = bars ++ n.2

/-- The line of a node is one row if its label is. -/
theorem IsLineOf.isRow {line : String} {n : Nat × String} (h : IsLineOf line n)
    (hn : IsRow n.2) : IsRow line := by
  obtain ⟨bars, -, hbars, rfl⟩ := h
  exact isRow_append.mpr ⟨hbars, hn⟩

section Lines

variable {lines : List String} {nodes : List (Nat × String)}

/-- The lines of nodes are one row each if their labels are. -/
theorem isRow_of_forall₂ (h : List.Forall₂ IsLineOf lines nodes) (hn : ∀ n ∈ nodes, IsRow n.2) :
    ∀ line ∈ lines, IsRow line := by
  induction h with
  | nil => exact nofun
  | cons hline _ ih =>
    rw [List.forall_mem_cons] at hn ⊢
    exact ⟨hline.isRow hn.1, ih hn.2⟩

/-- Lines that hang on a parent are those of nodes that are one deeper. -/
theorem forall₂_hang (last : Bool) (h : List.Forall₂ IsLineOf lines nodes) :
    List.Forall₂ IsLineOf (hang last lines) (nodes.map (Prod.map Nat.succ id)) := by
  have hdeeper {bars line : String} {n : Nat × String} (hbars : bars.length = 4 ∧ IsRow bars)
      (hline : IsLineOf line n) : IsLineOf (bars ++ line) (Prod.map Nat.succ id n) := by
    obtain ⟨inner, hinner, hrow, rfl⟩ := hline
    refine ⟨bars ++ inner, ?_, isRow_append.mpr ⟨hbars.2, hrow⟩, (String.append_assoc ..).symm⟩
    rw [String.length_append, hbars.1, hinner, Prod.map_fst, Nat.mul_succ, Nat.add_comm]
  have hconnector : (connector last).length = 4 ∧ IsRow (connector last) := by
    cases last <;> decide
  have hguide : (guide last).length = 4 ∧ IsRow (guide last) := by
    cases last <;> decide
  cases h with
  | nil => exact .nil
  | cons hline hlines =>
    refine .cons (hdeeper hconnector hline) ?_
    rw [List.forall₂_map_left_iff, List.forall₂_map_right_iff]
    exact hlines.imp fun _ _ => hdeeper hguide

namespace Outline

mutual

/-- A tree is drawn with one line for each of its nodes, in their order. -/
theorem forall₂_drawn : ∀ t : Outline, List.Forall₂ IsLineOf t.drawn t.preorder
  | node label operands => by
    rw [drawn, preorder]
    exact .cons ⟨"", rfl, by decide, by simp⟩ (forall₂_drawnAll operands)

theorem forall₂_drawnAll : ∀ ts : List Outline,
    List.Forall₂ IsLineOf (drawnAll ts) ((preorderAll ts).map (Prod.map Nat.succ id))
  | [] => by
    rw [drawnAll, preorderAll]
    exact .nil
  | t :: ts => by
    rw [drawnAll, preorderAll, List.map_append]
    exact List.rel_append (forall₂_hang _ t.forall₂_drawn) (forall₂_drawnAll ts)

end

end Outline

end Lines

/-- The rows of lines that are joined are the lines, if no line feed is in them. -/
theorem rows_intercalate {lines : List String} (hne : lines ≠ []) (h : ∀ l ∈ lines, IsRow l) :
    rows (String.intercalate "\n" lines).toList = lines.map String.toList := by
  rw [rows, String.toList_intercalate]
  refine List.splitOn_intercalate '\n' ?_ (by simpa using hne)
  intro row hrow
  obtain ⟨line, hline, rfl⟩ := List.mem_map.mp hrow
  exact h line hline

namespace Expr

variable {e : Expr}

/-- The rows of a tree are the lines of its drawing, if its labels are on one row each. -/
theorem rows_tree (h : ∀ n ∈ e.outline.preorder, IsRow n.2) :
    rows e.tree.toList = e.outline.drawn.map String.toList := by
  have hne : e.outline.drawn ≠ [] := by
    rw [drawn_outline]
    exact List.cons_ne_nil _ _
  rw [tree_eq]
  exact rows_intercalate hne (isRow_of_forall₂ e.outline.forall₂_drawn h)

/-- The tree that is made with a stack is the one that is drawn by recursion. If the labels of an
expression are on one row each, its tree has one row for each of its nodes, in their order, each
before its operands: bars as wide as the node is deep and behind them its label. -/
theorem tree_drawn (e : Expr) :
    e.tree = String.intercalate "\n" e.outline.drawn ∧
    ((∀ n ∈ e.outline.preorder, IsRow n.2) →
      (rows e.tree.toList).length = e.size ∧
      List.Forall₂ IsLineOf ((rows e.tree.toList).map String.ofList) e.outline.preorder) := by
  refine ⟨e.tree_eq, fun h => ?_⟩
  rw [rows_tree h, List.length_map, length_drawn_outline]
  have hlines : (e.outline.drawn.map String.toList).map String.ofList = e.outline.drawn := by
    simp [Function.comp_def]
  rw [hlines]
  exact ⟨rfl, e.outline.forall₂_drawn⟩

/-- `pow(x - z, abs(y))`, in which guides stand beside the operands of the difference. -/
private def callOfDifference : Expr :=
  .call .pow [.binary .sub (.name "x" ⟨4, 5⟩) (.name "z" ⟨8, 9⟩) ⟨6, 7⟩,
    .call .abs [.name "y" ⟨15, 16⟩] ⟨11, 14⟩] ⟨0, 3⟩

/-- The tree of `pow(x - z, abs(y))` has six rows. -/
theorem tree_drawn_call :
    (∀ n ∈ callOfDifference.outline.preorder, IsRow n.2) ∧
    callOfDifference.outline.drawn =
      ["pow", "├── sub", "│   ├── x", "│   └── z", "└── abs", "    └── y"] ∧
    (rows callOfDifference.tree.toList).length = 6 := by
  have h : ∀ n ∈ callOfDifference.outline.preorder, IsRow n.2 := by decide +kernel
  exact ⟨h, by decide +kernel, (callOfDifference.tree_drawn.2 h).1⟩

end Expr

end Reckoner
