import Mathlib.Data.List.Chain
import Reckoner.Expr

/-!
# The grammar of expressions

Which sequences of tokens make up an expression, and which expression, is stated here without a
parser. A derivation is indexed by the level of binding it belongs to and by its nesting: the
largest number of groups, argument lists, exponents and signs that are open at one place. A sign
stays open up to the end of the power that it stands before, and an exponent up to its own end.

A name needs no condition on what follows it, since no rule puts an opening parenthesis after a
complete primary: where a name stands before one, it is the name of a function that is called
(`Derives.isChain_callable`).
-/

namespace Reckoner

/-- A token that does not end the input and carries what its kind calls for: a number its value and
a name its text. -/
def Token.IsComplete (t : Token) : Prop :=
  t.lexeme ≠ .eof ∧ t.lexeme ≠ .number none ∧ t.lexeme ≠ .identifier none

instance (t : Token) : Decidable t.IsComplete := inferInstanceAs (Decidable (_ ∧ _ ∧ _))

/-- The levels of binding, loosest first. -/
inductive Level where
  /-- Products with `+` or `-` between them. -/
  | sum
  /-- Signed operands with `*`, `/` or `%` between them. -/
  | product
  /-- Signs before a power. -/
  | signed
  /-- A primary that may have an exponent. -/
  | power
  /-- A number, a group, a call or a name. -/
  | primary
  /-- A call whose argument list has arguments and is still open. -/
  | openCall
  deriving DecidableEq

/-- A sequence of tokens makes up an expression of a level, with a nesting. -/
inductive Derives : Level → List Token → Expr → Nat → Prop where
  /-- A product is a sum. -/
  | product {ts t d} (h : Derives .product ts t d) : Derives .sum ts t d
  /-- A sum grows to the right by a product. -/
  | addSub {ts l d us r e} {o : Token} {op : BinaryOp}
      (ho : o.lexeme = .plus ∧ op = .add ∨ o.lexeme = .minus ∧ op = .sub)
      (hl : Derives .sum ts l d) (hr : Derives .product us r e) :
      Derives .sum (ts ++ o :: us) (.binary op l r o.span) (max d e)
  /-- A signed operand is a product. -/
  | signed {ts t d} (h : Derives .signed ts t d) : Derives .product ts t d
  /-- A product grows to the right by a signed operand. -/
  | mulDiv {ts l d us r e} {o : Token} {op : BinaryOp}
      (ho : o.lexeme = .times ∧ op = .mul ∨ o.lexeme = .divide ∧ op = .div ∨
        o.lexeme = .modulo ∧ op = .mod)
      (hl : Derives .product ts l d) (hr : Derives .signed us r e) :
      Derives .product (ts ++ o :: us) (.binary op l r o.span) (max d e)
  /-- A power is a signed operand. -/
  | power {ts t d} (h : Derives .power ts t d) : Derives .signed ts t d
  /-- A sign stands before a signed operand. -/
  | sign {ts t d} {o : Token} {sg : Sign}
      (ho : o.lexeme = .plus ∧ sg = .pos ∨ o.lexeme = .minus ∧ sg = .neg)
      (h : Derives .signed ts t d) : Derives .signed (o :: ts) (.signed sg t o.span) (d + 1)
  /-- A primary is a power. -/
  | primary {ts t d} (h : Derives .primary ts t d) : Derives .power ts t d
  /-- An exponent is a signed operand. -/
  | raise {ts b d us x e} {o : Token} (ho : o.lexeme = .power) (hb : Derives .primary ts b d)
      (hx : Derives .signed us x e) :
      Derives .power (ts ++ o :: us) (.binary .pow b x o.span) (max d (e + 1))
  /-- A number is a primary. -/
  | number {t : Token} {v : Value} (ht : t.lexeme = .number (some v)) :
      Derives .primary [t] (.literal v t.span) 0
  /-- A name is a primary. -/
  | name {t : Token} {n : String} (ht : t.lexeme = .identifier (some n)) :
      Derives .primary [t] (.name n t.span) 0
  /-- A sum in parentheses is a primary. -/
  | group {ts t d} {lp rp : Token} (hlp : lp.lexeme = .lparen) (hrp : rp.lexeme = .rparen)
      (h : Derives .sum ts t d) : Derives .primary (lp :: ts ++ [rp]) t (d + 1)
  /-- A call without arguments is a primary. -/
  | callEmpty {n lp rp : Token} {f : Function} (hn : n.lexeme = .identifier (some f.name))
      (hlp : lp.lexeme = .lparen) (hrp : rp.lexeme = .rparen) :
      Derives .primary [n, lp, rp] (.call f [] n.span) 1
  /-- A call is a primary once its argument list is closed. -/
  | call {ts t d} {rp : Token} (hrp : rp.lexeme = .rparen) (h : Derives .openCall ts t d) :
      Derives .primary (ts ++ [rp]) t d
  /-- The first argument of a call. -/
  | argument {ts t d} {n lp : Token} {f : Function} (hn : n.lexeme = .identifier (some f.name))
      (hlp : lp.lexeme = .lparen) (h : Derives .sum ts t d) :
      Derives .openCall (n :: lp :: ts) (.call f [t] n.span) (d + 1)
  /-- A further argument of a call after a comma. -/
  | comma {ts d us t e} {c : Token} {f : Function} {args : List Expr} {span : Span}
      (hc : c.lexeme = .comma) (h : Derives .openCall ts (.call f args span) d)
      (ht : Derives .sum us t e) :
      Derives .openCall (ts ++ c :: us) (.call f (args ++ [t]) span) (max d (e + 1))

namespace Derives

/-- A lexeme that a primary can start with. -/
def startsPrimary : Lexeme → Prop
  | .number _ | .identifier _ | .lparen => True
  | _ => False

/-- A lexeme that an expression of a level can start with: signs come only before powers. -/
def starts : Level → Lexeme → Prop
  | .sum, l | .product, l | .signed, l => l = .plus ∨ l = .minus ∨ startsPrimary l
  | _, l => startsPrimary l

/-- Every expression of a level starts with a token that can start it. -/
theorem exists_head {l : Level} {ts : List Token} {t : Expr} {d : Nat} (h : Derives l ts t d) :
    ∃ u v, ts = u :: v ∧ starts l u.lexeme := by
  induction h with
  | product _ ih | signed _ ih => exact ih
  | addSub _ _ _ ihl _ | mulDiv _ _ _ ihl _ =>
    obtain ⟨u, v, rfl, hu⟩ := ihl
    exact ⟨u, _, rfl, hu⟩
  | power _ ih =>
    obtain ⟨u, v, rfl, hu⟩ := ih
    exact ⟨u, v, rfl, Or.inr (Or.inr hu)⟩
  | sign ho _ _ => exact ⟨_, _, rfl, ho.elim (fun h => Or.inl h.1) fun h => Or.inr (Or.inl h.1)⟩
  | primary _ ih => exact ih
  | raise _ _ _ ihb _ =>
    obtain ⟨u, v, rfl, hu⟩ := ihb
    exact ⟨u, _, rfl, hu⟩
  | number ht | name ht => exact ⟨_, _, rfl, by simp [starts, startsPrimary, ht]⟩
  | group hlp _ _ _ => exact ⟨_, _, rfl, by simp [starts, startsPrimary, hlp]⟩
  | callEmpty hn _ _ | argument hn _ _ _ =>
    exact ⟨_, _, rfl, by simp [starts, startsPrimary, hn]⟩
  | call _ _ ih | comma _ _ _ ih _ =>
    obtain ⟨u, v, rfl, hu⟩ := ih
    exact ⟨u, _, rfl, hu⟩

/-- An open call is a call. -/
theorem exists_call {ts : List Token} {t : Expr} {d : Nat} (h : Derives .openCall ts t d) :
    ∃ f args span, t = .call f args span := by
  cases h with
  | argument => exact ⟨_, _, _, rfl⟩
  | comma => exact ⟨_, _, _, rfl⟩

/-- An open call starts with a name and an opening parenthesis. -/
theorem exists_open {l : Level} {ts : List Token} {t : Expr} {d : Nat} (h : Derives l ts t d)
    (hl : l = .openCall) : ∃ m lp v name, ts = m :: lp :: v ∧
      m.lexeme = .identifier (some name) ∧ lp.lexeme = .lparen := by
  induction h with
  | argument hn hlp _ _ => exact ⟨_, _, _, _, rfl, hn, hlp⟩
  | comma _ _ _ ih _ =>
    obtain ⟨m, lp, v, name, rfl, hm, hlp⟩ := ih rfl
    exact ⟨m, lp, _, name, rfl, hm, hlp⟩
  | _ => cases hl

/-- Two neighbouring tokens call a function, if they are a name and an opening parenthesis. -/
def Callable (m p : Token) : Prop :=
  p.lexeme = .lparen → ∀ n, m.lexeme = .identifier (some n) → ∃ f : Function, f.name = n

/-- A token that neither names nor opens anything separates two sequences. -/
private theorem isChain_callable_append {a b : List Token} {o : Token}
    (ho : o.lexeme ≠ .lparen ∧ ∀ n, o.lexeme ≠ .identifier n) (ha : a.IsChain Callable)
    (hb : b.IsChain Callable) : (a ++ o :: b).IsChain Callable := by
  refine List.isChain_append.mpr ⟨ha, List.isChain_cons.mpr ⟨fun y _ _ n hn => ?_, hb⟩,
    fun x _ y hy hp => ?_⟩
  · exact absurd hn (ho.2 _)
  · obtain rfl : o = y := by simpa using hy
    exact absurd hp ho.1

/-- In an expression a name stands before an opening parenthesis only if it is the name of a
function. -/
theorem isChain_callable {l : Level} {ts : List Token} {t : Expr} {d : Nat}
    (h : Derives l ts t d) : ts.IsChain Callable := by
  induction h with
  | product _ ih | signed _ ih | power _ ih | primary _ ih => exact ih
  | addSub ho _ _ ihl ihr =>
    exact isChain_callable_append (by rcases ho with ⟨h, -⟩ | ⟨h, -⟩ <;> simp [h]) ihl ihr
  | mulDiv ho _ _ ihl ihr =>
    exact isChain_callable_append (by rcases ho with ⟨h, -⟩ | ⟨h, -⟩ | ⟨h, -⟩ <;> simp [h]) ihl ihr
  | raise ho _ _ ihl ihr => exact isChain_callable_append (by simp [ho]) ihl ihr
  | comma hc _ _ ihl ihr => exact isChain_callable_append (by simp [hc]) ihl ihr
  | sign ho _ ih =>
    exact isChain_callable_append (a := [])
      (by rcases ho with ⟨h, -⟩ | ⟨h, -⟩ <;> simp [h]) .nil ih
  | number _ | name _ => exact .singleton _
  | group hlp hrp _ ih =>
    exact isChain_callable_append (by simp [hrp])
      (List.isChain_cons.mpr ⟨fun y _ _ n hn => by simp [hlp] at hn, ih⟩) .nil
  | call hrp _ ih => exact isChain_callable_append (by simp [hrp]) ih .nil
  | callEmpty hn hlp hrp =>
    refine isChain_callable_append (a := [_, _]) (b := []) (by simp [hrp]) ?_ .nil
    refine List.isChain_pair.mpr fun _ n hn' => ?_
    exact ⟨_, by simpa [hn] using hn'⟩
  | argument hn hlp _ ih =>
    refine List.isChain_cons.mpr ⟨fun y _ _ n hn' => ⟨_, by simpa [hn] using hn'⟩, ?_⟩
    exact List.isChain_cons.mpr ⟨fun y _ _ n hn' => by simp [hlp] at hn', ih⟩

end Derives

end Reckoner
