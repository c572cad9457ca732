import Reckoner.Proofs.Grammar
import Reckoner.Proofs.Parsing.Steps

/-!
# What can be derived is read

Where the tokens that remain start with a derivation whose nesting fits between the depth and the
limit, and go on with a token that cannot make it longer, reading settles to the derived expression
behind its tokens. For a sum or a product this is stated with the reading of what follows: the loops
group to the left as the grammar does, so that an induction on the derivation goes through them.
-/

namespace Reckoner.Parser

/-- Tokens that remain and the one after them, where a nesting fits and nodes can be counted. -/
structure Before (s : State) (ts : List Token) (u : Token) (v : List Token) (d : Nat) : Prop where
  /-- The tokens remain, and the other one after them. -/
  rest_eq : s.rest = ts ++ u :: v
  /-- The nesting fits between the depth and the limit. -/
  depth_le : s.depth + d ≤ s.limit
  /-- Nodes can be counted. -/
  unreleased : s.arena.released = false

/-- What is left to do with signs that were read and may go on. -/
def signedAfter (m n : Nat) (read : List (Sign × Span)) : Parser Expr := do
  let read ← signs m read
  let e ← Rule.power.readWithin n
  let e ← underSigns read e
  leave read.length
  pure e

/-- What is left to do after the base of a power. -/
def afterBase (n : Nat) (base : Expr) : Parser Expr := do
  let t ← current
  if t.lexeme ≠ .power then pure base
  else do
    discard advance
    enter
    let exponent ← Rule.readWithin n .signed
    leave 1
    allocate (.binary .pow base exponent t.span)

/-- What is left to do after an argument of a call, of which some were read, the last first. -/
def afterArgument (n : Nat) (f : Function) (span : Span) (read : List Expr) : Parser Expr := do
  let t ← current
  if t.lexeme = .comma then do
    discard advance
    Rule.readWithin n (.arguments f span read)
  else do
    close
    allocate (.call f read.reverse span)

/-- Reading accepts a derivation of a level wherever it remains before a token that ends it. -/
def Accepts : Level → List Token → Expr → Nat → Prop
  | .sum, ts, t, d => ∀ s u v x, Before s ts u v d →
      productOperator? u.lexeme = none → u.lexeme ≠ .power → u.lexeme ≠ .lparen →
      SettlesTo (fun n => (Rule.sumAfter t).readWithin n) (s.after ts.length t.size) x →
      SettlesTo (fun n => Rule.sum.readWithin n) s x
  | .product, ts, t, d => ∀ s u v x, Before s ts u v d → u.lexeme ≠ .power → u.lexeme ≠ .lparen →
      SettlesTo (fun n => (Rule.productAfter t).readWithin n) (s.after ts.length t.size) x →
      SettlesTo (fun n => Rule.product.readWithin n) s x
  | .signed, ts, t, d => ∀ s u v read, Before s ts u v (d + read.length) →
      u.lexeme ≠ .power → u.lexeme ≠ .lparen →
      ∃ N, ∀ m n, N ≤ m → N ≤ n → signedAfter m n read (s.nested read.length) =
        .ok (t.under read) (s.after ts.length (t.size + read.length))
  | .power, ts, t, d => ∀ s u v, Before s ts u v d → u.lexeme ≠ .power → u.lexeme ≠ .lparen →
      SettlesTo (fun n => Rule.power.readWithin n) s (.ok t (s.after ts.length t.size))
  | .primary, ts, t, d => ∀ s u v, Before s ts u v d → u.lexeme ≠ .lparen →
      SettlesTo (fun n => Rule.primary.readWithin n) s (.ok t (s.after ts.length t.size))
  | .openCall, ts, t, d => ∀ f args span, t = .call f args span → ∀ s u v x, Before s ts u v d →
      u.lexeme = .comma ∨ u.lexeme = .rparen →
      SettlesTo (fun n => afterArgument n f span args.reverse)
        ((s.after ts.length (Expr.sizeAll args)).nested 1) x →
      SettlesTo (fun n => Rule.call.readWithin n) s x

section Accepts

variable {s : State} {ts us v : List Token} {u o : Token} {d e : Nat} {t l r : Expr}

/-- The state does not depend on how its numbers are written. -/
theorem State.after_congr (s : State) {k n k' n' : Nat} (hk : k = k') (hn : n = n') :
    s.after k n = s.after k' n' := by
  rw [hk, hn]

/-- Behind a first part, an operator and an operand all of them were passed over. -/
theorem State.after_operator (s : State) (op : BinaryOp) :
    (s.after ts.length l.size).after (1 + us.length) (r.size + 1) =
      s.after (ts ++ o :: us).length (Expr.binary op l r o.span).size := by
  rw [State.after_after]
  exact State.after_congr s (by simp; omega) (by simp [Expr.size]; omega)

theorem Before.rest_after (h : Before s ts u v d) (n : Nat) :
    (s.after ts.length n).rest = u :: v := by
  rw [State.rest_after, h.rest_eq, List.drop_left]

theorem Before.left (h : Before s (ts ++ o :: us) u v e) (hd : d ≤ e) :
    Before s ts o (us ++ u :: v) d :=
  ⟨by rw [h.rest_eq]; simp, by have := h.depth_le; omega, h.unreleased⟩

/-- Behind the token in the middle the second part remains. -/
theorem Before.right (h : Before s (ts ++ o :: us) u v e) (hd : d ≤ e) (n : Nat) :
    Before ((s.after ts.length n).after 1 0) us u v d := by
  refine ⟨?_, by have := h.depth_le; simp only [State.depth_after, State.limit_after]; omega,
    h.unreleased⟩
  rw [State.rest_after, (h.left (Nat.le_refl e)).rest_after]
  rfl

/-- The cursor moves on from a token that is not the last. -/
theorem skip_bind_append {β : Type} (hr : s.rest = o :: (us ++ u :: v)) (f : Unit → Parser β) :
    (discard advance >>= f) s = f () (s.after 1 0) := by
  obtain ⟨w, ws, hw⟩ : ∃ w ws, us ++ u :: v = w :: ws := List.exists_cons_of_ne_nil (by simp)
  exact skip_bind (hr.trans (by rw [hw])) f

/-- A chain ends before a token that is no operator of it. -/
theorem after_settles (c : Chain) (hr : s.rest = u :: v) (hu : c.operator? u.lexeme = none)
    (t : Expr) : SettlesTo (fun n => (c.after t).readWithin n) s (.ok t s) := by
  refine .of_succ (.of_eq fun n => ?_)
  rw [c.readWithin_after, current_bind hr]
  simp only [hu]
  rfl

/-- A chain goes on with an operator and its operand, if what it then is goes on. -/
theorem after_settles_of_operator {c : Chain} {op : BinaryOp} {x : EStateM.Result Stop State Expr}
    (hop : c.operator? o.lexeme = some op) (hrest : s.rest = o :: (us ++ u :: v))
    (hs : s.arena.released = false)
    (hright : SettlesTo (fun n => c.operand.readWithin n) (s.after 1 0)
      (.ok r ((s.after 1 0).after us.length r.size)))
    (hx : SettlesTo (fun n => (c.after (.binary op l r o.span)).readWithin n)
      (s.after (1 + us.length) (r.size + 1)) x) :
    SettlesTo (fun n => (c.after l).readWithin n) s x := by
  -- The loop reads the operator and its right operand, and goes on with the whole.
  refine .of_succ ((hright.bind (f := fun n right => do
    let e ← allocate (.binary op l right o.span)
    (c.after e).readWithin n) (hx.congr fun n => ?_)).congr fun n => ?_)
  · rw [bind_of_ok (allocate_eq (by exact hs) _)]
    congr 1
    simp only [State.after_after]
    exact State.after_congr s (by omega) (by omega)
  · rw [c.readWithin_after, current_bind hrest]
    simp only [hop]
    rw [skip_bind_append hrest]

/-- A signed operand without signs before it. -/
theorem Accepts.settles_signed (h : Accepts .signed ts t d) (hb : Before s ts u v d)
    (hpow : u.lexeme ≠ .power) (hlp : u.lexeme ≠ .lparen) :
    SettlesTo (fun n => Rule.signed.readWithin n) s (.ok t (s.after ts.length t.size)) := by
  obtain ⟨N, hN⟩ := h s u v [] hb hpow hlp
  refine .of_succ (.of_forall_le N fun n hn => ?_)
  have := hN (n + 1) n (by omega) hn
  rwa [List.length_nil, State.nested_zero] at this

theorem accepts_sum_of_product (h : Accepts .product ts t d) : Accepts .sum ts t d := by
  intro s u v x hb hu hpow hlp hx
  have hproduct := h s u v _ hb hpow hlp (after_settles .product (hb.rest_after _) hu t)
  exact .of_succ (hproduct.bind hx)

theorem accepts_product_of_signed (h : Accepts .signed ts t d) : Accepts .product ts t d := by
  intro s u v x hb hpow hlp hx
  exact .of_succ ((h.settles_signed hb hpow hlp).bind hx)

theorem accepts_addSub {op : BinaryOp}
    (ho : o.lexeme = .plus ∧ op = .add ∨ o.lexeme = .minus ∧ op = .sub)
    (hl : Accepts .sum ts l d) (hr : Accepts .product us r e) :
    Accepts .sum (ts ++ o :: us) (.binary op l r o.span) (max d e) := by
  intro s u v x hb hu hpow hlp hx
  have hbl := hb.left (Nat.le_max_left d e)
  have hbr := hb.right (Nat.le_max_right d e) l.size
  have hright := hr _ u v _ hbr hpow hlp (after_settles .product (hbr.rest_after _) hu r)
  refine hl s o _ x hbl (by rcases ho with h | h <;> simp [h.1, productOperator?])
    (by rcases ho with h | h <;> simp [h.1]) (by rcases ho with h | h <;> simp [h.1]) ?_
  refine after_settles_of_operator (c := .sum) (sumOperator?_eq_some_iff.mpr ho)
    (hbl.rest_after _) hb.unreleased hright ?_
  rw [State.after_operator]
  exact hx

theorem accepts_mulDiv {op : BinaryOp}
    (ho : o.lexeme = .times ∧ op = .mul ∨ o.lexeme = .divide ∧ op = .div ∨
      o.lexeme = .modulo ∧ op = .mod)
    (hl : Accepts .product ts l d) (hr : Accepts .signed us r e) :
    Accepts .product (ts ++ o :: us) (.binary op l r o.span) (max d e) := by
  intro s u v x hb hpow hlp hx
  have hbl := hb.left (Nat.le_max_left d e)
  have hbr := hb.right (Nat.le_max_right d e) l.size
  have hright := hr.settles_signed hbr hpow hlp
  refine hl s o _ x hbl (by rcases ho with h | h | h <;> simp [h.1])
    (by rcases ho with h | h | h <;> simp [h.1]) ?_
  refine after_settles_of_operator (c := .product) (productOperator?_eq_some_iff.mpr ho)
    (hbl.rest_after _) hb.unreleased hright ?_
  rw [State.after_operator]
  exact hx

/-- Before a power there are no more signs to read. -/
theorem accepts_signed_of_power (hhead : ∃ w ws, ts = w :: ws ∧ Derives.starts .power w.lexeme)
    (h : Accepts .power ts t d) : Accepts .signed ts t d := by
  intro s u v read hb hpow hlp
  obtain ⟨w, ws, rfl, hw⟩ := hhead
  have hrest : (s.nested read.length).rest = w :: (ws ++ u :: v) := hb.rest_eq
  have hsign : signOf? w.lexeme = none := by
    cases hlex : w.lexeme <;> simp_all [Derives.starts, Derives.startsPrimary, signOf?]
  have hdepth : (s.nested read.length).depth + d ≤ s.limit := by
    have := hb.depth_le
    simp only [State.depth_nested]
    omega
  obtain ⟨N, hN⟩ := h (s.nested read.length) u v ⟨hb.rest_eq, hdepth, hb.unreleased⟩ hpow hlp
  refine ⟨N + 1, fun m n hm hn => ?_⟩
  obtain ⟨m, rfl⟩ := Nat.exists_eq_add_of_le' (show 1 ≤ m by omega)
  have hsigns : signs (m + 1) read (s.nested read.length) = .ok read (s.nested read.length) := by
    rw [signs, current_bind hrest]
    simp only [hsign]
    rfl
  rw [signedAfter, bind_of_ok hsigns, bind_of_ok (hN n (by omega)),
    bind_of_ok (underSigns_eq (by exact hb.unreleased) _ _), State.nested_after, State.nested_after,
    leave_bind, State.after_after]
  rfl

/-- A sign is read before the others and waits with those read before it. -/
theorem accepts_sign {sg : Sign}
    (ho : o.lexeme = .plus ∧ sg = .pos ∨ o.lexeme = .minus ∧ sg = .neg)
    (h : Accepts .signed ts t d) : Accepts .signed (o :: ts) (.signed sg t o.span) (d + 1) := by
  intro s u v read hb hpow hlp
  have hrest : s.rest = o :: (ts ++ u :: v) := hb.rest_eq
  have hdepth := hb.depth_le
  have hb' : Before (s.after 1 0) ts u v (d + ((sg, o.span) :: read).length) := by
    refine ⟨by simp [hrest], ?_, hb.unreleased⟩
    simp only [State.depth_after, State.limit_after, List.length_cons]
    omega
  obtain ⟨N, hN⟩ := h (s.after 1 0) u v ((sg, o.span) :: read) hb' hpow hlp
  refine ⟨N + 1, fun m n hm hn => ?_⟩
  obtain ⟨m, rfl⟩ := Nat.exists_eq_add_of_le' (show 1 ≤ m by omega)
  have hsigns : signs (m + 1) read (s.nested read.length) =
      signs m ((sg, o.span) :: read) ((s.after 1 0).nested (read.length + 1)) := by
    obtain ⟨w, ws, hw⟩ : ∃ w ws, ts ++ u :: v = w :: ws := List.exists_cons_of_ne_nil (by simp)
    rw [hw] at hrest
    rw [signs, current_bind (show (s.nested read.length).rest = o :: w :: ws from hrest)]
    simp only [signOf?_eq_some_iff.mpr ho]
    rw [enter_bind (by simp only [State.depth_nested, State.limit_nested]; omega),
      advance_bind (show ((s.nested read.length).nested 1).rest = o :: w :: ws from hrest)]
    simp
  have hstep := hN m n (by omega) (by omega)
  rw [signedAfter, bind_apply] at hstep ⊢
  rw [hsigns]
  refine hstep.trans ?_
  rw [Expr.under, State.after_after]
  congr 1
  exact State.after_congr s (by simp; omega) (by simp [Expr.size]; omega)

theorem accepts_power_of_primary (h : Accepts .primary ts t d) : Accepts .power ts t d := by
  intro s u v hb hpow hlp
  refine .of_succ ((h s u v hb hlp).bind (f := afterBase) (.of_eq fun n => ?_))
  rw [afterBase, current_bind (hb.rest_after _)]
  simp only [hpow, ne_eq, not_false_eq_true, ite_true]
  rfl

theorem accepts_raise (ho : o.lexeme = .power) (hbase : Accepts .primary ts l d)
    (hx : Accepts .signed us r e) :
    Accepts .power (ts ++ o :: us) (.binary .pow l r o.span) (max d (e + 1)) := by
  intro s u v hb hpow hlp
  have hbl := hb.left (Nat.le_max_left d (e + 1))
  have hbr := hb.right (Nat.le_max_right d (e + 1)) l.size
  have hdepth : ((s.after ts.length l.size).after 1 0).depth <
      ((s.after ts.length l.size).after 1 0).limit := by
    have := hbr.depth_le
    omega
  have hexp : Before (((s.after ts.length l.size).after 1 0).nested 1) us u v e :=
    ⟨hbr.rest_eq, by
      have := hbr.depth_le
      simp only [State.depth_nested, State.limit_nested]
      omega, hb.unreleased⟩
  obtain ⟨N, hN⟩ := hx.settles_signed hexp hpow hlp
  refine .of_succ ((hbase s o _ hbl (by simp [ho])).bind (f := afterBase)
    (.of_forall_le N fun n hn => ?_))
  rw [afterBase, current_bind (hbl.rest_after _)]
  simp only [ho, ne_eq, not_true_eq_false, ite_false]
  rw [skip_bind_append (hbl.rest_after _), enter_bind hdepth, bind_of_ok (hN n hn),
    State.nested_after, leave_bind, allocate_eq (by exact hb.unreleased)]
  congr 1
  simp only [State.after_after]
  exact State.after_congr s (by simp; omega) (by simp [Expr.size]; omega)

theorem accepts_number {w : Value} (ht : o.lexeme = .number (some w)) :
    Accepts .primary [o] (.literal w o.span) 0 := by
  intro s u v hb hlp
  refine .of_succ (.of_eq fun n => ?_)
  rw [Rule.readWithin, current_bind hb.rest_eq]
  simp only [ht]
  rw [skip_bind hb.rest_eq, allocate_eq (by exact hb.unreleased)]
  simp [Expr.size]

theorem accepts_name {w : Option String} (ht : o.lexeme = .identifier w) :
    Accepts .primary [o] (.name (w.getD "None") o.span) 0 := by
  intro s u v hb hlp
  refine .of_succ (.of_eq fun n => ?_)
  rw [Rule.readWithin, current_bind hb.rest_eq]
  simp only [ht]
  rw [peek_bind hb.rest_eq]
  simp only [hlp, ite_false]
  rw [skip_bind hb.rest_eq, allocate_eq (by exact hb.unreleased)]
  simp [Expr.size]

theorem accepts_group {lp rp : Token} (hlp : lp.lexeme = .lparen) (hrp : rp.lexeme = .rparen)
    (h : Accepts .sum ts t d) : Accepts .primary (lp :: ts ++ [rp]) t (d + 1) := by
  intro s u v hb _
  have hrest : s.rest = lp :: (ts ++ rp :: u :: v) := by simpa using hb.rest_eq
  have hdepth := hb.depth_le
  have hin : Before ((s.after 1 0).nested 1) ts rp (u :: v) d := by
    refine ⟨by simp [hrest], ?_, hb.unreleased⟩
    simp only [State.depth_nested, State.depth_after, State.limit_nested, State.limit_after]
    omega
  obtain ⟨N, hN⟩ := h _ rp (u :: v) _ hin (by simp [hrp, productOperator?]) (by simp [hrp])
    (by simp [hrp])
    (after_settles .sum (hin.rest_after _) (by simp [hrp, Chain.operator?, sumOperator?]) t)
  refine .of_succ (.of_succ (.of_forall_le N fun n hn => ?_))
  rw [Rule.readWithin, current_bind hrest]
  simp only [hlp]
  rw [Rule.readWithin, skip_bind_append hrest,
    enter_bind (by simp only [State.depth_after, State.limit_after]; omega), bind_of_ok (hN n hn),
    State.nested_after,
    close_bind (show ((s.after 1 0).after ts.length t.size).rest = rp :: u :: v from
      hin.rest_after t.size) hrp]
  show EStateM.Result.ok t _ = _
  simp only [State.after_after]
  congr 1
  exact State.after_congr s (by simp; omega) (by simp)

/-- A primary that starts with a name before an opening parenthesis is read as a call. -/
theorem primary_settles_of_call {m lp : Token} {name : String} {w : List Token}
    {x : EStateM.Result Stop State Expr} (hrest : s.rest = m :: lp :: w)
    (hm : m.lexeme = .identifier (some name)) (hlp : lp.lexeme = .lparen)
    (h : SettlesTo (fun n => Rule.call.readWithin n) s x) :
    SettlesTo (fun n => Rule.primary.readWithin n) s x := by
  refine .of_succ (h.congr fun n => ?_)
  rw [Rule.readWithin, current_bind hrest]
  simp only [hm]
  rw [peek_bind hrest]
  simp only [hlp, ite_true]

theorem accepts_callEmpty {m lp rp : Token} {f : Function}
    (hm : m.lexeme = .identifier (some f.name))
    (hlp : lp.lexeme = .lparen) (hrp : rp.lexeme = .rparen) :
    Accepts .primary [m, lp, rp] (.call f [] m.span) 1 := by
  intro s u v hb _
  have hrest : s.rest = m :: lp :: rp :: u :: v := hb.rest_eq
  have hdepth := hb.depth_le
  refine primary_settles_of_call hrest hm hlp (.of_succ (.of_eq fun n => ?_))
  rw [Rule.readWithin, current_bind hrest]
  simp only [Token.name?, hm, Option.getD_some, Function.ofName?_name]
  have hr₁ : (s.after 1 0).rest = lp :: rp :: u :: v := by simp [hrest]
  have hr₂ : ((s.after 1 0).after 1 0).rest = rp :: u :: v := by simp [hrest]
  rw [skip_bind hrest, skip_bind hr₁,
    enter_bind (by simp only [State.depth_after, State.limit_after]; omega),
    current_bind (show (((s.after 1 0).after 1 0).nested 1).rest = _ from hr₂)]
  simp only [hrp, ite_true]
  rw [close_bind hr₂ hrp, allocate_eq (by exact hb.unreleased)]
  simp [Expr.size, Expr.sizeAll]

/-- An open call is complete at a closing parenthesis. -/
theorem accepts_call {rp : Token} (hrp : rp.lexeme = .rparen) (hder : Derives .openCall ts t d)
    (h : Accepts .openCall ts t d) : Accepts .primary (ts ++ [rp]) t d := by
  intro s u v hb _
  obtain ⟨f, args, span, rfl⟩ := hder.exists_call
  obtain ⟨m, lp, w, name, rfl, hm, hlp⟩ := hder.exists_open rfl
  have hb' : Before s (m :: lp :: w) rp (u :: v) d :=
    ⟨by simpa using hb.rest_eq, hb.depth_le, hb.unreleased⟩
  refine primary_settles_of_call hb'.rest_eq hm hlp
    (h f args span rfl s rp (u :: v) _ hb' (Or.inr hrp) (.of_eq fun n => ?_))
  have hr := hb'.rest_after (Expr.sizeAll args)
  have hr' : ((s.after (m :: lp :: w).length (Expr.sizeAll args)).nested 1).rest =
      rp :: u :: v := hr
  rw [afterArgument, current_bind hr']
  simp only [hrp, reduceCtorEq, ite_false]
  rw [close_bind hr hrp, allocate_eq (by exact hb.unreleased), List.reverse_reverse]
  simp only [State.after_after]
  congr 1
  exact State.after_congr s (by simp) (by simp [Expr.size]; omega)

/-- An argument is read up to the comma or the closing parenthesis after it. -/
theorem arguments_settles (f : Function) (span : Span) (before : List Expr)
    {x : EStateM.Result Stop State Expr} (h : Accepts .sum ts t d)
    (hb : Before (s.nested 1) ts u v d) (hu : u.lexeme = .comma ∨ u.lexeme = .rparen)
    (hx : SettlesTo (fun n => afterArgument n f span (t :: before))
      ((s.after ts.length t.size).nested 1) x) :
    SettlesTo (fun n => (Rule.arguments f span before).readWithin n) (s.nested 1) x := by
  have hsum := h (s.nested 1) u v _ hb (by rcases hu with hu | hu <;> simp [hu, productOperator?])
    (by rcases hu with hu | hu <;> simp [hu]) (by rcases hu with hu | hu <;> simp [hu])
    (after_settles .sum (hb.rest_after _)
      (by rcases hu with hu | hu <;> simp [hu, Chain.operator?, sumOperator?]) t)
  exact .of_succ (hsum.bind (f := fun n e => afterArgument n f span (e :: before)) hx)

theorem accepts_argument {m lp : Token} {f : Function} (hm : m.lexeme = .identifier (some f.name))
    (hder : Derives .sum ts t d) (h : Accepts .sum ts t d) :
    Accepts .openCall (m :: lp :: ts) (.call f [t] m.span) (d + 1) := by
  rintro f' args span ⟨⟩ s u v x hb hu hx
  obtain ⟨w, ws, rfl, hw⟩ := hder.exists_head
  have hrest : s.rest = m :: lp :: w :: (ws ++ u :: v) := hb.rest_eq
  have hdepth := hb.depth_le
  have hb' : Before ((s.after 2 0).nested 1) (w :: ws) u v d := by
    refine ⟨by simp [hrest], ?_, hb.unreleased⟩
    simp only [State.depth_nested, State.depth_after, State.limit_nested, State.limit_after]
    omega
  have hafter : (s.after 2 0).after (w :: ws).length t.size =
      s.after (m :: lp :: w :: ws).length (Expr.sizeAll [t]) := by
    rw [State.after_after]
    exact State.after_congr s (by simp; omega) (by simp [Expr.sizeAll])
  have hargs := arguments_settles f m.span [] (x := x) h hb' hu (by rw [hafter]; exact hx)
  refine .of_succ (hargs.congr fun n => ?_)
  have hr₁ : (s.after 1 0).rest = lp :: w :: (ws ++ u :: v) := by simp [hrest]
  have hr₂ : (((s.after 1 0).after 1 0).nested 1).rest = w :: (ws ++ u :: v) := by simp [hrest]
  have hne : w.lexeme ≠ .rparen := by
    intro he
    simp [he, Derives.starts, Derives.startsPrimary] at hw
  rw [Rule.readWithin, current_bind hrest]
  simp only [Token.name?, hm, Option.getD_some, Function.ofName?_name]
  rw [skip_bind hrest, skip_bind hr₁,
    enter_bind (by simp only [State.depth_after, State.limit_after]; omega), current_bind hr₂]
  simp only [hne, ite_false, State.after_after]

theorem accepts_comma {c : Token} {f : Function} {args : List Expr} {span : Span}
    (hc : c.lexeme = .comma) (hargs : Accepts .openCall ts (.call f args span) d)
    (ht : Accepts .sum us t e) :
    Accepts .openCall (ts ++ c :: us) (.call f (args ++ [t]) span) (max d (e + 1)) := by
  rintro f' args' span' ⟨⟩ s u v x hb hu hx
  have hbl := hb.left (Nat.le_max_left d (e + 1))
  have hbr := hb.right (Nat.le_max_right d (e + 1)) (Expr.sizeAll args)
  refine hargs f args span rfl s c _ x hbl (Or.inl hc) ?_
  have hb' : Before ((((s.after ts.length (Expr.sizeAll args)).after 1 0)).nested 1) us u v e := by
    refine ⟨hbr.rest_eq, ?_, hb.unreleased⟩
    have := hbr.depth_le
    simp only [State.depth_nested, State.limit_nested]
    omega
  have hafter : ((s.after ts.length (Expr.sizeAll args)).after 1 0).after us.length t.size =
      s.after (ts ++ c :: us).length (Expr.sizeAll (args ++ [t])) := by
    rw [State.after_after, State.after_after]
    exact State.after_congr s (by simp; omega) (by simp [Expr.sizeAll_append, Expr.sizeAll])
  have hmore := arguments_settles f span args.reverse (x := x) ht hb' hu (by
    rw [hafter]
    simpa using hx)
  refine hmore.congr fun n => ?_
  have hr := hbl.rest_after (Expr.sizeAll args)
  have hr' : ((s.after ts.length (Expr.sizeAll args)).nested 1).rest = c :: (us ++ u :: v) := hr
  rw [afterArgument, current_bind hr']
  simp only [hc, ite_true]
  rw [skip_bind_append hr', State.nested_after]

end Accepts

/-- Reading accepts every derivation. -/
theorem accepts_of_derives {l : Level} {ts : List Token} {t : Expr} {d : Nat}
    (h : Derives l ts t d) : Accepts l ts t d := by
  induction h with
  | product _ ih => exact accepts_sum_of_product ih
  | addSub ho _ _ ihl ihr => exact accepts_addSub ho ihl ihr
  | signed _ ih => exact accepts_product_of_signed ih
  | mulDiv ho _ _ ihl ihr => exact accepts_mulDiv ho ihl ihr
  | power h ih => exact accepts_signed_of_power h.exists_head ih
  | sign ho _ ih => exact accepts_sign ho ih
  | primary _ ih => exact accepts_power_of_primary ih
  | raise ho _ _ ihb ihx => exact accepts_raise ho ihb ihx
  | number ht => exact accepts_number ht
  | name ht => exact accepts_name ht
  | group hlp hrp _ ih => exact accepts_group hlp hrp ih
  | callEmpty hn hlp hrp => exact accepts_callEmpty hn hlp hrp
  | call hrp h ih => exact accepts_call hrp h ih
  | argument hn _ h ih => exact accepts_argument hn h ih
  | comma hc _ _ ih iht => exact accepts_comma hc ih iht

end Reckoner.Parser
