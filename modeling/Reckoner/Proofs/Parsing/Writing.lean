import Reckoner.Proofs.Parsing.Acceptance
import Reckoner.Proofs.Parsing.Walk
import Reckoner.Proofs.Relocation

/-!
# Writing expressions

An expression is written as a sequence of lexemes, in which an operand stands in parentheses only if
it binds more loosely than its place needs. The levels of binding are those of the grammar: the left
operands of sums and products may be chains of the same level and the right ones may not, a base is
a primary, and an exponent is a signed operand. Whatever is written is parsed to the expression that
was written, under a limit that is no less than the number of tokens.
-/

namespace Reckoner

/-- How strongly a level binds; an open call stands nowhere as an operand. -/
def Level.strength : Level → Nat
  | openCall => 0
  | sum => 1
  | product => 2
  | signed => 3
  | power => 4
  | primary => 5

namespace BinaryOp

/-- The level of what an operator joins. -/
def level : BinaryOp → Level
  | add | sub => .sum
  | mul | div | mod => .product
  | pow => .power

/-- The level that the place of a left operand needs. -/
def leftPlace : BinaryOp → Level
  | add | sub => .sum
  | mul | div | mod => .product
  | pow => .primary

/-- The level that the place of a right operand needs. -/
def rightPlace : BinaryOp → Level
  | add | sub => .product
  | mul | div | mod | pow => .signed

end BinaryOp

/-- Lexemes of a level at a place: in parentheses if the level binds more loosely. -/
def enclosed (level place : Level) (ls : List Lexeme) : List Lexeme :=
  if level.strength < place.strength then .lparen :: (ls ++ [.rparen]) else ls

namespace Expr

mutual

/-- An expression at a place as lexemes. -/
def written : Level → Expr → List Lexeme
  | _, literal v _ => [.number (some v)]
  | _, name n _ => [.identifier (some n)]
  | place, binary op l r _ => enclosed op.level place
      (l.written op.leftPlace ++ op.lexeme :: r.written op.rightPlace)
  | place, signed sg x _ => enclosed .signed place (sg.lexeme :: x.written .signed)
  | _, call f args _ =>
    .identifier (some f.name) :: .lparen :: ((writtenAfterCommas args).tail ++ [.rparen])

/-- Arguments as lexemes, each of them after a comma. -/
def writtenAfterCommas : List Expr → List Lexeme
  | [] => []
  | e :: es => .comma :: (e.written .sum ++ writtenAfterCommas es)

end

/-- Two expressions are alike if they differ at most in their spans. -/
def Alike (t e : Expr) : Prop :=
  t.relocate (fun _ => default) = e.relocate (fun _ => default)

end Expr

/-- What goes down from each level to the next looser one goes down to all. -/
private theorem Level.downward {P : Level → Prop} (hpower : P .primary → P .power)
    (hsigned : P .power → P .signed) (hproduct : P .signed → P .product)
    (hsum : P .product → P .sum) {l place : Level} (hplace : 0 < place.strength)
    (hle : place.strength ≤ l.strength) (h : P l) : P place := by
  cases place <;> cases l <;> simp_all [strength]

namespace Derives

variable {ts : List Token} {t : Expr} {d : Nat} {l place : Level}

/-- What is derived at a level is derived at every looser one. -/
theorem loosen (h : Derives l ts t d) (hplace : 0 < place.strength)
    (hle : place.strength ≤ l.strength) : Derives place ts t d :=
  Level.downward (P := fun l => Derives l ts t d) .primary .power .signed .product hplace hle h

/-- A nesting takes at least as many tokens. -/
theorem nesting_le_length (h : Derives l ts t d) : d ≤ ts.length := by
  induction h with
  | product _ ih | signed _ ih | power _ ih | primary _ ih => exact ih
  | number | name => exact Nat.zero_le _
  | _ => simp only [List.length_append, List.length_cons, List.length_nil]; omega

end Derives

/-! ### What is written can be derived -/

/-- Whatever tokens lexemes are those of, an expression that is alike is derived from them. -/
private def DerivesLike (place : Level) (ls : List Lexeme) (e : Expr) : Prop :=
  ∀ ts : List Token, ts.map Token.lexeme = ls → ∃ t d, Derives place ts t d ∧ t.Alike e

/-- Parentheses make a primary of what binds too loosely. -/
private theorem derivesLike_enclosed {level place : Level} {ls : List Lexeme} {e : Expr}
    (hlevel : 0 < level.strength) (hplace : 0 < place.strength)
    (h : DerivesLike level ls e) : DerivesLike place (enclosed level place ls) e := by
  intro ts hts
  by_cases hle : level.strength < place.strength
  · rw [enclosed, if_pos hle, List.map_eq_cons_iff] at hts
    obtain ⟨lp, us, rfl, hlp, hus⟩ := hts
    obtain ⟨vs, ws, rfl, hvs, hws⟩ := List.map_eq_append_iff.mp hus
    obtain ⟨rp, rfl, hrp⟩ := List.map_eq_singleton_iff.mp hws
    obtain ⟨t, d, hd, halike⟩ := h vs hvs
    have hgroup : Derives .primary _ t _ := .group hlp hrp (hd.loosen (by decide) hlevel)
    exact ⟨t, d + 1, hgroup.loosen hplace (by cases place <;> decide), halike⟩
  · rw [enclosed, if_neg hle] at hts
    obtain ⟨t, d, hd, halike⟩ := h ts hts
    exact ⟨t, d, hd.loosen hplace (Nat.le_of_not_lt hle), halike⟩

/-- An operator joins operands of the levels that its places need. -/
private theorem derives_binary (op : BinaryOp) {ts us : List Token} {o : Token} {l r : Expr}
    {d e : Nat} (ho : o.lexeme = op.lexeme) (hl : Derives op.leftPlace ts l d)
    (hr : Derives op.rightPlace us r e) :
    ∃ n, Derives op.level (ts ++ o :: us) (.binary op l r o.span) n := by
  cases op with
  | add => exact ⟨_, .addSub (.inl ⟨ho, rfl⟩) hl hr⟩
  | sub => exact ⟨_, .addSub (.inr ⟨ho, rfl⟩) hl hr⟩
  | mul => exact ⟨_, .mulDiv (.inl ⟨ho, rfl⟩) hl hr⟩
  | div => exact ⟨_, .mulDiv (.inr (.inl ⟨ho, rfl⟩)) hl hr⟩
  | mod => exact ⟨_, .mulDiv (.inr (.inr ⟨ho, rfl⟩)) hl hr⟩
  | pow => exact ⟨_, .raise ho hl hr⟩

/-- An open call goes on with arguments after commas. -/
private theorem derives_afterCommas {f : Function} {span : Span} {args : List Expr}
    (hargs : ∀ a ∈ args, DerivesLike .sum (a.written .sum) a) {ts us : List Token}
    {before : List Expr} {d : Nat} (h : Derives .openCall ts (.call f before span) d)
    (hus : us.map Token.lexeme = Expr.writtenAfterCommas args) :
    ∃ new n, Derives .openCall (ts ++ us) (.call f (before ++ new) span) n ∧
      Expr.relocateAll (fun _ => default) new = Expr.relocateAll (fun _ => default) args := by
  induction args generalizing ts us before d with
  | nil =>
    obtain rfl := List.map_eq_nil_iff.mp hus
    exact ⟨[], d, by simpa using h, rfl⟩
  | cons a args ih =>
    obtain ⟨c, vs, rfl, hc, hvs⟩ := List.map_eq_cons_iff.mp hus
    obtain ⟨vs, ws, rfl, hvs, hws⟩ := List.map_eq_append_iff.mp hvs
    obtain ⟨t, e, ht, halike⟩ := hargs a List.mem_cons_self vs hvs
    obtain ⟨new, n, hnew, hall⟩ :=
      ih (fun b hb => hargs b (List.mem_cons_of_mem a hb)) (.comma hc h ht) hws
    refine ⟨t :: new, n, by simpa using hnew, ?_⟩
    rw [Expr.relocateAll, Expr.relocateAll, halike, hall]

/-- A call is derived from its name, its parentheses and its arguments. -/
private theorem derivesLike_call {f : Function} {span : Span} {args : List Expr}
    (hargs : ∀ a ∈ args, DerivesLike .sum (a.written .sum) a) (place : Level) :
    DerivesLike .primary (Expr.written place (.call f args span)) (.call f args span) := by
  intro ts hts
  obtain ⟨n, us, rfl, hn, hus⟩ := List.map_eq_cons_iff.mp hts
  obtain ⟨lp, us, rfl, hlp, hrest⟩ := List.map_eq_cons_iff.mp hus
  obtain ⟨vs, ws, rfl, hvs, hws⟩ := List.map_eq_append_iff.mp hrest
  obtain ⟨rp, rfl, hrp⟩ := List.map_eq_singleton_iff.mp hws
  cases args with
  | nil =>
    obtain rfl := List.map_eq_nil_iff.mp hvs
    exact ⟨_, _, .callEmpty hn hlp hrp, rfl⟩
  | cons a args =>
    obtain ⟨xs, ys, rfl, hxs, hys⟩ := List.map_eq_append_iff.mp hvs
    obtain ⟨t, d, ht, halike⟩ := hargs a List.mem_cons_self xs hxs
    obtain ⟨new, m, hnew, hall⟩ := derives_afterCommas
      (fun b hb => hargs b (List.mem_cons_of_mem a hb)) (.argument hn hlp ht) hys
    refine ⟨_, m, .call hrp (by simpa using hnew), ?_⟩
    simp only [Expr.Alike, Expr.relocate, Expr.relocateAll]
    rw [halike, hall]

/-- An expression is derived from what it is written as, up to its spans. -/
private theorem derivesLike_written (e : Expr) {place : Level} (hplace : 0 < place.strength) :
    DerivesLike place (e.written place) e := by
  induction e generalizing place with
  | literal v s =>
    intro ts hts
    obtain ⟨t, rfl, ht⟩ := List.map_eq_singleton_iff.mp hts
    exact ⟨_, 0, (Derives.number ht).loosen hplace (by cases place <;> decide), rfl⟩
  | name n s =>
    intro ts hts
    obtain ⟨t, rfl, ht⟩ := List.map_eq_singleton_iff.mp hts
    exact ⟨_, 0, (Derives.name ht).loosen hplace (by cases place <;> decide), rfl⟩
  | binary op l r s ihl ihr =>
    refine derivesLike_enclosed (by cases op <;> decide) hplace fun ts hts => ?_
    obtain ⟨us, ws, rfl, hus, hws⟩ := List.map_eq_append_iff.mp hts
    obtain ⟨o, vs, rfl, ho, hvs⟩ := List.map_eq_cons_iff.mp hws
    obtain ⟨l', d, hl, hleft⟩ := ihl (by cases op <;> decide) us hus
    obtain ⟨r', e, hr, hright⟩ := ihr (by cases op <;> decide) vs hvs
    obtain ⟨n, hbinary⟩ := derives_binary op ho hl hr
    refine ⟨_, n, hbinary, ?_⟩
    simp only [Expr.Alike, Expr.relocate]
    rw [hleft, hright]
  | signed sg x s ih =>
    refine derivesLike_enclosed (by decide) hplace fun ts hts => ?_
    obtain ⟨o, us, rfl, ho, hus⟩ := List.map_eq_cons_iff.mp hts
    obtain ⟨x', d, hx, halike⟩ := ih (by decide) us hus
    have hsign : o.lexeme = .plus ∧ sg = .pos ∨ o.lexeme = .minus ∧ sg = .neg := by
      cases sg <;> simp_all [Sign.lexeme]
    refine ⟨_, d + 1, .sign hsign hx, ?_⟩
    simp only [Expr.Alike, Expr.relocate]
    rw [halike]
  | call f args s ih =>
    intro ts hts
    obtain ⟨t, d, ht, halike⟩ := derivesLike_call (fun a ha => ih a ha (by decide)) place ts hts
    exact ⟨t, d, ht.loosen hplace (by cases place <;> decide), halike⟩

namespace Parser

/-- Whatever expression is written is parsed from any tokens that are so written, under a limit of
at least their number, up to its spans. -/
theorem parse_written (e : Expr) {ts : List Token} (hts : ts.map Token.lexeme = e.written .sum)
    {o : Token} (ho : o.lexeme = .eof) {s : State} (hs : s.arena.released = false)
    (hlimit : (ts.length : Int) ≤ s.limit) :
    ∃ t s', parse (ts ++ [o]) s = .ok t s' ∧ t.Alike e := by
  obtain ⟨t, d, ht, halike⟩ := derivesLike_written e (by decide) ts hts
  have hd : (d : Int) ≤ s.limit := by
    have := ht.nesting_le_length
    omega
  exact ⟨t, _, parse_of_derives ho hs ht hd, halike⟩

/-- The names `x` and `y` as lexemes. -/
private def lexemeX : Lexeme := .identifier (some "x")

private def lexemeY : Lexeme := .identifier (some "y")

/-- The expression `x-(x-y)-(-abs)^-pow(x,y)`, in which `abs` is a variable. -/
private def nestedDifference : Expr :=
  let x : Expr := .name "x" default
  let y : Expr := .name "y" default
  let base : Expr := .signed .neg (.name "abs" default) default
  let exponent : Expr := .signed .neg (.call .pow [x, y] default) default
  .binary .sub (.binary .sub x (.binary .sub x y default) default)
    (.binary .pow base exponent default) default

/-- Of the operands of `x-(x-y)-(-abs)^-pow(x,y)` the right difference and the base stand in
parentheses, and its tokens are parsed to it. -/
theorem parse_writtenDifference :
    nestedDifference.written .sum = [lexemeX, .minus, .lparen, lexemeX, .minus, lexemeY, .rparen,
      .minus, .lparen, .minus, .identifier (some "abs"), .rparen, .power, .minus,
      .identifier (some "pow"), .lparen, lexemeX, .comma, lexemeY, .rparen] ∧
    ∃ t s', parse ((nestedDifference.written .sum).map (fun l => ⟨l, default⟩) ++
      [⟨.eof, default⟩]) (.initial .empty 20) = .ok t s' ∧ t.Alike nestedDifference := by
  refine ⟨rfl, parse_written nestedDifference ?_ rfl rfl (by decide)⟩
  rw [List.map_map]
  exact List.map_id _

end Parser

end Reckoner
