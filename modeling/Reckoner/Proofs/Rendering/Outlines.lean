import Reckoner.Proofs.Parsing.Sessions
import Reckoner.Proofs.Parsing.Walk
import Reckoner.Proofs.Rendering.Drawing
import Reckoner.Proofs.Scanning.Tokenization

/-!
# A tree determines its outline

The lines of an operand begin at a connector and go on behind guides, and no connector looks like a
guide. So the drawing of an operand ends where the next line begins at a connector, or at the end,
and it can be read off what follows it. By induction no two outlines are drawn with the same lines.
The labels of a parsed expression are on one row each, so that its tree can be cut into these lines.
-/

namespace Reckoner

/-! ### Where an operand ends -/

/-- Lines that are empty or begin at a connector. -/
def IsHung (lines : List String) : Prop :=
  ∀ line ∈ lines.head?, ∃ last text, line = connector last ++ text

section Lines

variable {b b' : Bool} {line line' : String} {xs ys rest rest' : List String}

theorem toList_connector (b : Bool) :
    (connector b).toList = [if b then '└' else '├', '─', '─', ' '] := by
  cases b <;> decide

theorem toList_guide (b : Bool) : (guide b).toList = [if b then ' ' else '│', ' ', ' ', ' '] := by
  cases b <;> decide

/-- A connector shows whether an operand is the last one, and where its line begins. -/
theorem connector_append_inj (h : connector b ++ line = connector b' ++ line') :
    b = b' ∧ line = line' := by
  have hlist := congrArg String.toList h
  simp only [String.toList_append, toList_connector, List.cons_append, List.nil_append,
    List.cons.injEq, true_and, String.toList_inj] at hlist
  refine ⟨?_, hlist.2⟩
  have hhead := hlist.1
  cases b <;> cases b' <;> first | rfl | exact absurd hhead (by decide)

/-- No line behind a guide begins at a connector. -/
theorem guide_append_ne (b b' : Bool) (line line' : String) :
    guide b ++ line ≠ connector b' ++ line' := by
  intro h
  have hlist := congrArg String.toList h
  simp only [String.toList_append, toList_guide, toList_connector, List.cons_append,
    List.nil_append, List.cons.injEq] at hlist
  exact absurd hlist.2.1 (by decide)

/-- No line behind a guide leads lines that are hung. -/
theorem not_isHung_guide (b : Bool) (line : String) (lines : List String) :
    ¬IsHung ((guide b ++ line) :: lines) := by
  intro h
  obtain ⟨b', text, htext⟩ := h _ rfl
  exact guide_append_ne b b' line text htext

/-- Lines behind a guide end where hung lines begin. -/
theorem map_guide_append_inj (hrest : IsHung rest) (hrest' : IsHung rest')
    (h : xs.map (guide b ++ ·) ++ rest = ys.map (guide b ++ ·) ++ rest') :
    xs = ys ∧ rest = rest' := by
  induction xs generalizing ys with
  | nil =>
    cases ys with
    | nil => exact ⟨rfl, h⟩
    | cons y ys =>
      rw [List.map_nil, List.nil_append] at h
      subst h
      exact absurd hrest (not_isHung_guide b y _)
  | cons x xs ih =>
    cases ys with
    | nil =>
      rw [List.map_nil, List.nil_append] at h
      subst h
      exact absurd hrest' (not_isHung_guide b x _)
    | cons y ys =>
      obtain ⟨hline, htail⟩ := List.cons.inj h
      obtain ⟨rfl, hrests⟩ := ih htail
      exact ⟨by rw [(String.append_right_inj _).mp hline], hrests⟩

/-- The lines of an operand that hangs on its parent end where hung lines begin, and they show
whether it is the last one. -/
theorem hang_append_inj (hxs : xs ≠ []) (hys : ys ≠ []) (hrest : IsHung rest)
    (hrest' : IsHung rest') (h : hang b xs ++ rest = hang b' ys ++ rest') :
    b = b' ∧ xs = ys ∧ rest = rest' := by
  obtain ⟨x, xs, rfl⟩ := List.exists_cons_of_ne_nil hxs
  obtain ⟨y, ys, rfl⟩ := List.exists_cons_of_ne_nil hys
  obtain ⟨hline, htail⟩ := List.cons.inj h
  obtain ⟨rfl, rfl⟩ := connector_append_inj hline
  obtain ⟨rfl, hrests⟩ := map_guide_append_inj hrest hrest' htail
  exact ⟨rfl, rfl, hrests⟩

end Lines

/-! ### Reading an outline off its drawing -/

namespace Outline

theorem drawn_ne_nil (t : Outline) : t.drawn ≠ [] := by
  cases t
  rw [drawn]
  exact List.cons_ne_nil _ _

/-- The first line of operands. -/
theorem exists_drawnAll_cons (t : Outline) (ts : List Outline) :
    ∃ line lines, drawnAll (t :: ts) = (connector ts.isEmpty ++ line) :: lines := by
  obtain ⟨line, lines, hlines⟩ := List.exists_cons_of_ne_nil t.drawn_ne_nil
  rw [drawnAll, hlines, hang]
  exact ⟨line, _, rfl⟩

theorem drawnAll_cons_ne_nil (t : Outline) (ts : List Outline) : drawnAll (t :: ts) ≠ [] := by
  obtain ⟨line, lines, hlines⟩ := exists_drawnAll_cons t ts
  rw [hlines]
  exact List.cons_ne_nil _ _

theorem isHung_drawnAll (ts : List Outline) : IsHung (drawnAll ts) := by
  intro line hline
  cases ts with
  | nil => cases hline
  | cons t ts =>
    obtain ⟨text, lines, hlines⟩ := exists_drawnAll_cons t ts
    rw [hlines, List.head?_cons, Option.mem_some_iff] at hline
    exact ⟨_, text, hline.symm⟩

mutual

/-- No two outlines are drawn with the same lines. -/
theorem drawn_inj : ∀ t u : Outline, t.drawn = u.drawn → t = u
  | node label ts, node label' us => by
    intro h
    rw [drawn, drawn] at h
    obtain ⟨rfl, hoperands⟩ := List.cons.inj h
    rw [drawnAll_inj ts us hoperands]

theorem drawnAll_inj : ∀ ts us : List Outline, drawnAll ts = drawnAll us → ts = us
  | [], [] => fun _ => rfl
  | [], u :: us => by
    intro h
    rw [drawnAll] at h
    exact absurd h.symm (drawnAll_cons_ne_nil u us)
  | t :: ts, [] => by
    intro h
    exact absurd h (drawnAll_cons_ne_nil t ts)
  | t :: ts, u :: us => by
    intro h
    rw [drawnAll, drawnAll] at h
    obtain ⟨-, hfirst, hothers⟩ := hang_append_inj t.drawn_ne_nil u.drawn_ne_nil
      (isHung_drawnAll ts) (isHung_drawnAll us) h
    rw [drawn_inj t u hfirst, drawnAll_inj ts us hothers]

end

end Outline

/-! ### The labels of parsed expressions -/

/-- Filling in what a token lacks brings no line feed in. -/
theorem Lexeme.IsInRow.completed {t : Token} (h : t.lexeme.IsInRow) :
    t.completed.lexeme.IsInRow := by
  unfold Token.completed
  split
  · exact nofun
  · rintro n ⟨⟩
    decide
  · exact h

namespace Expr

variable {e : Expr}

/-- The label of an expression is on one row if the tokens of its nodes are. -/
theorem isRow_label (h : ∀ t ∈ e.walk, t.lexeme.IsInRow) : IsRow e.label := by
  cases e with
  | literal v s =>
    have hvalue := v.isRow_text
    simpa [label, IsRow] using hvalue
  | name n s => exact h ⟨.identifier (some n), s⟩ (by simp [walk]) n rfl
  | binary op _ _ _ =>
    change IsRow op.name
    cases op <;> decide
  | signed sg _ _ =>
    change IsRow sg.name
    cases sg <;> decide
  | call f _ _ =>
    change IsRow f.name
    cases f <;> decide

/-- The labels of an outline are that of its root and those of its operands. -/
private theorem isRow_preorder_iff {text : String} {ts : List Outline} :
    (∀ n ∈ (Outline.node text ts).preorder, IsRow n.2) ↔
      IsRow text ∧ ∀ n ∈ Outline.preorderAll ts, IsRow n.2 := by
  rw [Outline.preorder, List.forall_mem_cons, List.forall_mem_map]
  exact Iff.rfl

private theorem isRow_preorderAll_nil : ∀ n ∈ Outline.preorderAll [], IsRow n.2 := by
  rw [Outline.preorderAll]
  exact List.forall_mem_nil _

mutual

/-- The labels of an expression are on one row each if the tokens of its nodes are. -/
theorem isRow_labels : ∀ e : Expr, (∀ t ∈ e.walk, t.lexeme.IsInRow) →
    ∀ n ∈ e.outline.preorder, IsRow n.2
  | literal v s => by
    intro h
    rw [outline, isRow_preorder_iff]
    exact ⟨isRow_label h, isRow_preorderAll_nil⟩
  | name n s => by
    intro h
    rw [outline, isRow_preorder_iff]
    exact ⟨isRow_label h, isRow_preorderAll_nil⟩
  | binary op l r s => by
    intro h
    rw [outline, isRow_preorder_iff, Outline.preorderAll, Outline.preorderAll,
      List.forall_mem_append, List.forall_mem_append]
    have hlabel := isRow_label h
    rw [walk, List.forall_mem_append, List.forall_mem_cons] at h
    exact ⟨hlabel, l.isRow_labels h.1, r.isRow_labels h.2.2, isRow_preorderAll_nil⟩
  | signed sg x s => by
    intro h
    rw [outline, isRow_preorder_iff, Outline.preorderAll, List.forall_mem_append]
    have hlabel := isRow_label h
    rw [walk, List.forall_mem_cons] at h
    exact ⟨hlabel, x.isRow_labels h.2, isRow_preorderAll_nil⟩
  | call f args s => by
    intro h
    rw [outline, isRow_preorder_iff]
    have hlabel := isRow_label h
    rw [walk, List.forall_mem_cons] at h
    exact ⟨hlabel, isRow_labelsAll args h.2⟩

theorem isRow_labelsAll : ∀ es : List Expr, (∀ t ∈ walkAll es, t.lexeme.IsInRow) →
    ∀ n ∈ Outline.preorderAll (outlineAll es), IsRow n.2
  | [] => by
    intro _
    rw [outlineAll]
    exact isRow_preorderAll_nil
  | e :: es => by
    intro h
    rw [walkAll, List.forall_mem_append] at h
    rw [outlineAll, Outline.preorderAll, List.forall_mem_append]
    exact ⟨e.isRow_labels h.1, isRow_labelsAll es h.2⟩

end

/-- Expressions whose labels are on one row each have the same tree only if they have the same
outline. -/
theorem outline_eq_of_tree_eq {e f : Expr} (he : ∀ n ∈ e.outline.preorder, IsRow n.2)
    (hf : ∀ n ∈ f.outline.preorder, IsRow n.2) (h : e.tree = f.tree) : e.outline = f.outline := by
  have hrows : e.outline.drawn.map String.toList = f.outline.drawn.map String.toList := by
    rw [← rows_tree he, ← rows_tree hf, h]
  have hdrawn : e.outline.drawn = f.outline.drawn :=
    (List.map_injective_iff.mpr fun _ _ => String.toList_injective) hrows
  exact Outline.drawn_inj _ _ hdrawn

end Expr

/-- An expression that a parser has returned for a source, or for tokens that were put together by
hand with each name on one row. -/
inductive IsParsed : Expr → Prop where
  /-- The expression is parsed from a source. -/
  | ofSource {source : String} {s s' : Parser.State} {e : Expr}
      (h : Parser.parseSource source s = .ok e s') : IsParsed e
  /-- The expression is parsed from tokens. -/
  | ofTokens {ts : List Token} {s s' : Parser.State} {e : Expr}
      (hts : ∀ t ∈ ts, t.lexeme.IsInRow) (h : Parser.parse ts s = .ok e s') : IsParsed e

/-- The tokens of a source carry no line feed. -/
theorem isInRow_of_scan {source : String} {ts : List Token} (h : scan source = .ok ts) :
    ∀ t ∈ ts, t.lexeme.IsInRow := by
  obtain ⟨us, rfl, hus⟩ := writes_of_scan h
  rw [List.forall_mem_append, List.forall_mem_singleton]
  refine ⟨?_, nofun⟩
  intro t ht
  obtain ⟨cs, hcs⟩ := hus t ht
  exact hcs.isInRow

/-- The labels of an expression that is parsed from names on one row each are on one row each. -/
theorem isRow_labels_of_parse {ts : List Token} {s s' : Parser.State} {e : Expr}
    (hts : ∀ t ∈ ts, t.lexeme.IsInRow) (h : Parser.parse ts s = .ok e s') :
    ∀ n ∈ e.outline.preorder, IsRow n.2 := by
  refine e.isRow_labels ?_
  intro t ht
  obtain ⟨u, hu, rfl⟩ := List.mem_map.mp (Parser.mem_of_mem_walk h ht)
  exact (hts u hu).completed

namespace IsParsed

variable {e f : Expr}

/-- The labels of a parsed expression are on one row each. -/
theorem isRow_labels (h : IsParsed e) : ∀ n ∈ e.outline.preorder, IsRow n.2 := by
  cases h with
  | @ofSource source s s' e h =>
    cases hscan : scan source with
    | error fault =>
      rw [Parser.parseSource_of_error hscan] at h
      cases h
    | ok ts =>
      rw [Parser.parseSource_of_ok hscan] at h
      exact isRow_labels_of_parse (isInRow_of_scan hscan) h
  | ofTokens hts h => exact isRow_labels_of_parse hts h

/-- Parsed expressions have the same tree exactly if they have the same shape with the same label at
every node. -/
theorem tree_eq_iff (he : IsParsed e) (hf : IsParsed f) :
    e.tree = f.tree ↔ e.outline = f.outline := by
  constructor
  · exact Expr.outline_eq_of_tree_eq he.isRow_labels hf.isRow_labels
  · intro h
    rw [Expr.tree_eq, Expr.tree_eq, h]

/-- A single name. -/
private theorem derives_name (n : String) (p q : Int) :
    Derives .signed [⟨.identifier (some n), ⟨p, q⟩⟩] (.name n ⟨p, q⟩) 0 :=
  .power (.primary (.name rfl))

/-- The trees of `a-b-c` and `a-(b-c)` differ, since the operands are grouped in another way. -/
theorem tree_ne_of_grouping : ∃ e f, IsParsed e ∧ IsParsed f ∧
    e.outline = .node "sub" [.node "sub" [.node "a" [], .node "b" []], .node "c" []] ∧
    f.outline = .node "sub" [.node "a" [], .node "sub" [.node "b" [], .node "c" []]] ∧
    e.tree ≠ f.tree := by
  have hscan : scan "a-b-c" = .ok [⟨.identifier (some "a"), ⟨0, 1⟩⟩, ⟨.minus, ⟨1, 2⟩⟩,
      ⟨.identifier (some "b"), ⟨2, 3⟩⟩, ⟨.minus, ⟨3, 4⟩⟩, ⟨.identifier (some "c"), ⟨4, 5⟩⟩,
      ⟨.eof, ⟨5, 5⟩⟩] := by decide +kernel
  have hscan' : scan "a-(b-c)" = .ok [⟨.identifier (some "a"), ⟨0, 1⟩⟩, ⟨.minus, ⟨1, 2⟩⟩,
      ⟨.lparen, ⟨2, 3⟩⟩, ⟨.identifier (some "b"), ⟨3, 4⟩⟩, ⟨.minus, ⟨4, 5⟩⟩,
      ⟨.identifier (some "c"), ⟨5, 6⟩⟩, ⟨.rparen, ⟨6, 7⟩⟩, ⟨.eof, ⟨7, 7⟩⟩] := by decide +kernel
  have hleft : Derives .sum _ _ 0 := .addSub (o := ⟨.minus, ⟨3, 4⟩⟩) (.inr ⟨rfl, rfl⟩)
    (.addSub (o := ⟨.minus, ⟨1, 2⟩⟩) (.inr ⟨rfl, rfl⟩) (.product (.signed (derives_name "a" 0 1)))
      (.signed (derives_name "b" 2 3)))
    (.signed (derives_name "c" 4 5))
  have hgroup : Derives .primary _ _ 1 := .group
    (show (⟨.lparen, ⟨2, 3⟩⟩ : Token).lexeme = .lparen from rfl)
    (show (⟨.rparen, ⟨6, 7⟩⟩ : Token).lexeme = .rparen from rfl)
    (.addSub (o := ⟨.minus, ⟨4, 5⟩⟩) (.inr ⟨rfl, rfl⟩) (.product (.signed (derives_name "b" 3 4)))
      (.signed (derives_name "c" 5 6)))
  have hright : Derives .sum _ _ 1 := .addSub (o := ⟨.minus, ⟨1, 2⟩⟩) (.inr ⟨rfl, rfl⟩)
    (.product (.signed (derives_name "a" 0 1))) (.signed (.power (.primary hgroup)))
  have hparse := Parser.parse_of_derives (e := ⟨.eof, ⟨5, 5⟩⟩) rfl (s := .initial .empty 1) rfl
    hleft (by decide)
  have hparse' := Parser.parse_of_derives (e := ⟨.eof, ⟨7, 7⟩⟩) rfl (s := .initial .empty 1) rfl
    hright (by decide)
  have he := IsParsed.ofSource ((Parser.parseSource_of_ok hscan _).trans hparse)
  have hf := IsParsed.ofSource ((Parser.parseSource_of_ok hscan' _).trans hparse')
  refine ⟨_, _, he, hf, rfl, rfl, ?_⟩
  rw [ne_eq, he.tree_eq_iff hf]
  simp [Expr.outline, Expr.label]

end IsParsed

end Reckoner
