import Reckoner.Proofs.Parsing.FirstFault

/-!
# A node for each token

A parser counts one node for each token that is no punctuation, but only after the operands of the
token have theirs. Until then the node is owed. Every move keeps a balance: the nodes that were
counted, those that are owed, and those that are due for the tokens ahead make up one total all the
way. At the end of a complete expression nothing is owed, so that there are as many nodes as tokens;
and where the parser stops, the nodes that are still owed are never counted.
-/

namespace Reckoner

/-- The number of tokens before the first end of the input that are no punctuation. -/
def nodesDue (ts : List Token) : Nat :=
  (withoutPunctuation (ts.takeWhile fun t => t.lexeme ≠ .eof)).length

/-- Punctuation does not end the input. -/
theorem Token.ne_eof_of_isPunctuation {t : Token} (h : t.isPunctuation = true) :
    t.lexeme ≠ .eof := by
  intro he
  simp [Token.isPunctuation, he] at h

/-- No node is due for punctuation. -/
theorem nodesDue_cons_of_punctuation {t : Token} (h : t.isPunctuation = true) (ts : List Token) :
    nodesDue (t :: ts) = nodesDue ts := by
  simp [nodesDue, Token.ne_eof_of_isPunctuation h, withoutPunctuation_cons h]

/-- A node is due for every other token that does not end the input. -/
theorem nodesDue_cons {t : Token} (ht : t.lexeme ≠ .eof) (h : t.isPunctuation = false)
    (ts : List Token) : nodesDue (t :: ts) = nodesDue ts + 1 := by
  simp [nodesDue, ht, withoutPunctuation, h]

/-- No token but the end of the input lessens the nodes that are due. -/
theorem nodesDue_le_cons {t : Token} (ht : t.lexeme ≠ .eof) (ts : List Token) :
    nodesDue ts ≤ nodesDue (t :: ts) := by
  cases hp : t.isPunctuation with
  | true => rw [nodesDue_cons_of_punctuation hp]
  | false =>
    rw [nodesDue_cons ht hp]
    exact Nat.le_succ _

/-- No node is due at the end of the input. -/
theorem nodesDue_of_eof {t : Token} (ht : t.lexeme = .eof) (ts : List Token) :
    nodesDue (t :: ts) = 0 := by
  simp [nodesDue, ht, withoutPunctuation]

/-- At most the tokens at the front make a difference. -/
theorem nodesDue_append_le (us ts : List Token) :
    nodesDue (us ++ ts) ≤ (withoutPunctuation us).length + nodesDue ts := by
  induction us with
  | nil => simp [withoutPunctuation]
  | cons u us ih =>
    by_cases hu : u.lexeme = .eof
    · rw [List.cons_append, nodesDue_of_eof hu]
      exact Nat.zero_le _
    · cases hp : u.isPunctuation with
      | true =>
        rw [List.cons_append, nodesDue_cons_of_punctuation hp, withoutPunctuation_cons hp]
        exact ih
      | false =>
        have hcons : withoutPunctuation (u :: us) = u :: withoutPunctuation us := by
          simp [withoutPunctuation, hp]
        rw [List.cons_append, nodesDue_cons hu hp, hcons, List.length_cons]
        omega

mutual

/-- The walk through an expression visits each of its nodes once. -/
theorem Expr.length_walk (e : Expr) : e.walk.length = e.size := by
  cases e with
  | literal _ _ => rfl
  | name _ _ => rfl
  | binary _ l r _ =>
    rw [Expr.walk, List.length_append, List.length_cons, l.length_walk, r.length_walk, Expr.size]
    omega
  | signed _ x _ =>
    rw [Expr.walk, List.length_cons, x.length_walk, Expr.size]
    omega
  | call _ args _ =>
    rw [Expr.walk, List.length_cons, Expr.length_walkAll args, Expr.size]
    omega

/-- The walk through several expressions visits each of their nodes once. -/
theorem Expr.length_walkAll (es : List Expr) : (Expr.walkAll es).length = Expr.sizeAll es := by
  cases es with
  | nil => rfl
  | cons e es =>
    rw [Expr.walkAll, List.length_append, e.length_walk, Expr.length_walkAll es, Expr.sizeAll]

end

namespace Parser

/-- The operators of a chain are no punctuation. -/
theorem Chain.isPunctuation_of_operator? {c : Chain} {o : Token} {op : BinaryOp}
    (h : c.operator? o.lexeme = some op) : o.isPunctuation = false := by
  have hlexeme : o.lexeme = op.lexeme := by
    cases c with
    | sum => rcases sumOperator?_eq_some_iff.mp h with ⟨ho, rfl⟩ | ⟨ho, rfl⟩ <;> exact ho
    | product =>
      rcases productOperator?_eq_some_iff.mp h with ⟨ho, rfl⟩ | ⟨ho, rfl⟩ | ⟨ho, rfl⟩ <;> exact ho
  have hp := op.isPunctuation_lexeme o.span
  rwa [← hlexeme] at hp

/-- The signs are no punctuation. -/
theorem isPunctuation_of_signOf? {o : Token} {sg : Sign} (h : signOf? o.lexeme = some sg) :
    o.isPunctuation = false := by
  rcases signOf?_eq_some_iff.mp h with ⟨ho, -⟩ | ⟨ho, -⟩ <;> simp [Token.isPunctuation, ho]

/-- A node is owed for each token that is passed and is no punctuation. -/
theorem Stage.Passes.owed_eq {c c' : Stage} {t : Token} (h : c.Passes t.lexeme c') :
    c'.owed = c.owed + if t.isPunctuation then 0 else 1 := by
  cases h with
  | operand h =>
    obtain ⟨v, h⟩ | ⟨n, h⟩ := h <;> simp [Token.isPunctuation, h]
  | operator _ h => simp [Chain.isPunctuation_of_operator? h]
  | sign h => simp [isPunctuation_of_signOf? h]
  | comma h | power h | lparen _ h | rparen _ h => simp [Token.isPunctuation, h]

/-- The nodes that were counted, those that are owed and those that are due for the tokens ahead
make up a total. -/
def Owes (total : Nat) (a : Stage × State) : Prop :=
  a.2.arena.size + a.1.owed + nodesDue a.2.rest = total

variable {total : Nat} {a b : Stage × State}

theorem Owes.le_total (h : Owes total a) : a.2.arena.size + nodesDue a.2.rest ≤ total := by
  have hbalance : a.2.arena.size + a.1.owed + nodesDue a.2.rest = total := h
  omega

/-- Every move keeps the balance: a token that is passed leaves its node owed, if one was due for
it, and a node that is counted is owed no longer. -/
theorem Move.owes (h : Move a b) (ha : Owes total a) : Owes total b := by
  cases h with
  | @pass c c' s t u r d hr hpasses =>
    have howed := hpasses.owed_eq
    have hbalance : s.arena.size + c.owed + nodesDue s.rest = total := ha
    have hrest : (s.passed d).rest = u :: r := by
      show (s.after 1 0).rest = u :: r
      simp [hr]
    show s.arena.size + 0 + c'.owed + nodesDue (s.passed d).rest = total
    rw [hr] at hbalance
    rw [hrest]
    cases hp : t.isPunctuation with
    | true =>
      rw [nodesDue_cons_of_punctuation hp] at hbalance
      rw [hp] at howed
      simp only [ite_true] at howed
      omega
    | false =>
      rw [nodesDue_cons hpasses.ne_eof hp] at hbalance
      rw [hp] at howed
      simp only [Bool.false_eq_true, ite_false] at howed
      omega
  | @count os n ph s =>
    have hbalance : s.arena.size + (n + 1) + nodesDue s.rest = total := ha
    show s.arena.size + 1 + n + nodesDue s.rest = total
    omega
  | leave | loosen => exact ha

/-- No more nodes are due behind a token than from it on. -/
private theorem nodesDue_after_one {s : State} {t : Token} {r : List Token} (hr : s.rest = t :: r)
    (ht : t.lexeme ≠ .eof) : nodesDue (s.after 1 0).rest ≤ nodesDue s.rest := by
  simpa [hr] using nodesDue_le_cons ht r

/-- Where a parser stops, no more nodes were counted than the tokens ahead leave of the total. -/
theorem Halt.le_total {cut : Prop} {e : Stop} {s' : State} (h : Halt cut a e s')
    (ha : Owes total a) :
    s'.arena.size + nodesDue s'.rest ≤ total := by
  have hle := ha.le_total
  cases h with
  | wrong | unclosed | released | exhausted => exact hle
  | @tooDeep c c' s o u t r v k hr hpasses _ _ _ hk =>
    obtain rfl | rfl := Nat.le_one_iff_eq_zero_or_eq_one.mp hk
    · exact hle
    · exact Nat.le_trans (Nat.add_le_add_left (nodesDue_after_one hr hpasses.ne_eof) _) hle
  | missing hr ht =>
    exact Nat.le_trans (Nat.add_le_add_left (nodesDue_after_one hr (by simp [ht])) _) hle

/-- Parsing balances at the nodes that were counted before and those that are due for the tokens. -/
theorem balances_parse {ts : List Token} (hts : isTerminated ts = true) (s : State) :
    (∀ t s', parse ts s = .ok t s' →
      s'.arena.size + nodesDue s'.rest = s.arena.size + nodesDue ts) ∧
    ∀ e s', parse ts s = .error e s' →
      s'.arena.size + nodesDue s'.rest ≤ s.arena.size + nodesDue ts := by
  have howes : Owes (s.arena.size + nodesDue ts) (.start, s.loaded ts) := by
    rw [Owes, State.rest_loaded]
    rfl
  constructor
  · intro t s' h
    exact keeps_of_parse Move.owes hts howes h
  · intro e s' h
    obtain ⟨b, hb, hhalt⟩ := exists_halt_of_parse Move.owes hts howes h
    exact hhalt.le_total hb

/-- The walk through a parsed expression visits the tokens before the first end of the input
without punctuation, each once and in their order. -/
theorem walk_eq_up_to_eof {ts : List Token} {s s' : State} {t : Expr}
    (h : parse ts s = .ok t s') :
    t.walk =
      (withoutPunctuation (ts.takeWhile fun t => t.lexeme ≠ .eof)).map Token.completed := by
  obtain ⟨us, e, r, d, heq, he, hd, -⟩ := exists_derives_up_to h
  have hlexeme : (fun t : Token => decide (t.lexeme ≠ .eof)) ∘ Token.completed =
      fun t => decide (t.lexeme ≠ .eof) := by
    funext t
    exact decide_eq_decide.mpr (not_congr (completes_completed.eq_iff (by simp) (by simp) t))
  have hus : (ts.takeWhile fun t => t.lexeme ≠ .eof).map Token.completed = us := by
    rw [← hlexeme, ← List.takeWhile_map, heq, List.takeWhile_append_of_pos]
    · simp [he]
    · intro u hu
      exact decide_eq_true (hd.isComplete u hu).1
  rw [hd.walk_eq, ← hus, withoutPunctuation_map_completed]

/-- No parser forgets nodes that were counted. -/
theorem size_arena_le_of_parse {ts : List Token} (hts : isTerminated ts = true) {s s' : State}
    {stop : Stop} (h : parse ts s = .error stop s') : s.arena.size ≤ s'.arena.size := by
  have ho := orderly_parse hts s
  rw [h] at ho
  obtain ⟨-, ⟨k, n, d, rfl⟩, -⟩ := ho
  exact Nat.le_add_right _ n

/-- Where a parser stops, at most the tokens that the cursor has passed have their nodes. -/
theorem size_arena_le_of_balances {before after : List Token} {t : Token} {s' : State} {start : Nat}
    (hrest : s'.rest = t :: after)
    (h : s'.arena.size + nodesDue s'.rest ≤ start + nodesDue (before ++ t :: after)) :
    s'.arena.size ≤ start + (withoutPunctuation before).length := by
  have hle := nodesDue_append_le before (t :: after)
  rw [hrest] at h
  omega

/-- A parser that succeeds has counted exactly the nodes of its expression, and there is one for
each token before the first end of the input that is no punctuation. So no node was counted twice,
and none that was counted is missing in the expression. Where a parser stops at a fault, it has
counted no more nodes than there are such tokens before the one at fault. -/
theorem size_arena_of_parse {ts : List Token} (hts : isTerminated ts = true) (s : State) :
    (∀ t s', parse ts s = .ok t s' →
      s'.arena.size = s.arena.size + t.size ∧
      t.size = (withoutPunctuation (ts.takeWhile fun t => t.lexeme ≠ .eof)).length ∧
      t.walk =
        (withoutPunctuation (ts.takeWhile fun t => t.lexeme ≠ .eof)).map Token.completed) ∧
    ∀ f s', parse ts s = .error (.fault f) s' →
      ∃ before t after, ts = before ++ t :: after ∧ s'.pos = before.length ∧ f.span = t.span ∧
        f.cause.found? = some t.lexeme ∧ s.arena.size ≤ s'.arena.size ∧
        s'.arena.size ≤ s.arena.size + (withoutPunctuation before).length := by
  obtain ⟨hbalance, hle⟩ := balances_parse hts s
  constructor
  · intro t s' h
    obtain ⟨-, e, r, hr, he⟩ := parse_eq_ok hts h
    have hwalk := walk_eq_up_to_eof h
    have hsize : t.size = nodesDue ts := by
      rw [← t.length_walk, hwalk, List.length_map, nodesDue]
    have hbalance := hbalance t s' h
    rw [hr, nodesDue_of_eof he] at hbalance
    exact ⟨by omega, hsize, hwalk⟩
  · intro f s' h
    obtain ⟨before, t, after, rfl, hpos, hspan, hfound⟩ := exists_blamed hts h
    have hrest : s'.rest = t :: after := by simp [State.rest, tokens_of_parse hts h, hpos]
    exact ⟨before, t, after, rfl, hpos, hspan, hfound.found?_eq, size_arena_le_of_parse hts h,
      size_arena_le_of_balances hrest (hle _ s' h)⟩

/-- The tokens of `-x`. -/
private def negatedName : List Token :=
  [⟨.minus, ⟨0, 1⟩⟩, ⟨.identifier (some "x"), ⟨1, 2⟩⟩]

/-- The tokens of `abs(y`. -/
private def unclosedCall : List Token :=
  [⟨.identifier (some "abs"), ⟨0, 3⟩⟩, ⟨.lparen, ⟨3, 4⟩⟩, ⟨.identifier (some "y"), ⟨4, 5⟩⟩,
    ⟨.eof, ⟨5, 5⟩⟩]

/-- To five nodes `-x` adds its two. In `abs(y` the end of the input is at fault, and of the two
tokens before it that are no punctuation only the second has its node. -/
theorem size_arena_closed_unclosed :
    (∃ t s', parse (negatedName ++ [⟨.eof, ⟨2, 2⟩⟩]) (.initial ⟨5, false⟩ 1) = .ok t s' ∧
      s'.arena.size = 5 + t.size ∧ t.size = 2) ∧
    ∃ s', parse unclosedCall (.initial ⟨5, false⟩ 2) =
        .error (.fault ⟨.expectedRParen .eof, ⟨5, 5⟩⟩) s' ∧
      s'.arena.size = 6 ∧
      s'.arena.size ≤ 5 + (withoutPunctuation (unclosedCall.take 3)).length := by
  constructor
  · have hx : Derives .sum negatedName (.signed .neg (.name "x" ⟨1, 2⟩) ⟨0, 1⟩) 1 :=
      .product (.signed (.sign (.inr ⟨rfl, rfl⟩) (.power (.primary (.name rfl)))))
    have h := parse_of_derives (e := ⟨.eof, ⟨2, 2⟩⟩) rfl (s := .initial ⟨5, false⟩ 1) rfl hx
      (by decide)
    obtain ⟨hsize, hcount, -⟩ := (size_arena_of_parse (by decide) _).1 _ _ h
    exact ⟨_, _, h, hsize, hcount⟩
  · have h : parse unclosedCall (.initial ⟨5, false⟩ 2) =
        .error (.fault ⟨.expectedRParen .eof, ⟨5, 5⟩⟩)
          ⟨unclosedCall.toArray, 3, 0, 2, ⟨6, false⟩⟩ := rfl
    obtain ⟨before, t, after, hsplit, hpos, -, -, -, hle⟩ :=
      (size_arena_of_parse (by decide) _).2 _ _ h
    have hbefore : before = unclosedCall.take 3 := by
      rw [hsplit, show 3 = before.length from hpos, List.take_left]
    rw [hbefore] at hle
    exact ⟨_, h, rfl, hle⟩

end Parser

end Reckoner
