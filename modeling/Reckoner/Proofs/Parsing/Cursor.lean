import Reckoner.Expr.Parser
import Mathlib.Data.List.Basic

/-!
# The cursor of a parser

What the elementary parsers do is stated on the tokens that remain. A parser that succeeds moves
the cursor on and counts nodes, and one that stops may besides leave levels open. `State.after` and
`State.nested` name these two changes; every state that a parser leaves behind is written with them.
-/

namespace Reckoner

/-- An expression under signs, the first of them innermost. -/
def Expr.under : List (Sign × Span) → Expr → Expr
  | [], e => e
  | (sg, span) :: rest, e => under rest (.signed sg e span)

theorem Expr.under_append (as bs : List (Sign × Span)) (e : Expr) :
    e.under (as ++ bs) = (e.under as).under bs := by
  induction as generalizing e with
  | nil => rfl
  | cons p as ih => exact ih _

/-- The order of expressions does not matter for their nodes. -/
theorem Expr.sizeAll_reverse (es : List Expr) : sizeAll es.reverse = sizeAll es := by
  induction es with
  | nil => rfl
  | cons e es ih =>
    rw [List.reverse_cons, Expr.sizeAll_append, ih]
    simp only [Expr.sizeAll]
    omega

/-- Every sign is a node. -/
theorem Expr.size_under (read : List (Sign × Span)) (e : Expr) :
    (e.under read).size = e.size + read.length := by
  induction read generalizing e with
  | nil => rfl
  | cons p read ih =>
    rw [Expr.under, ih, Expr.size, List.length_cons]
    omega

namespace Parser

/-- The tokens from the cursor on. -/
def State.rest (s : State) : List Token := s.tokens.toList.drop s.pos

/-- The cursor stands on a token, and the tokens from there on end with the end of the input. -/
def State.Ready (s : State) : Prop := isTerminated s.rest = true

/-- The state some tokens further on, with some more nodes. -/
def State.after (s : State) (tokens nodes : Nat) : State :=
  { s with pos := s.pos + tokens, arena := { s.arena with size := s.arena.size + nodes } }

/-- The state with some more levels open. -/
def State.nested (s : State) (levels : Nat) : State := { s with depth := s.depth + levels }

/-- The state that a result leaves behind. -/
def finalState {α : Type} : EStateM.Result Stop State α → State
  | .ok _ s => s
  | .error _ s => s

/-- An end with another state left behind. -/
def mapState {α : Type} (f : State → State) :
    EStateM.Result Stop State α → EStateM.Result Stop State α
  | .ok a s => .ok a (f s)
  | .error e s => .error e (f s)

@[simp] theorem finalState_mapState {α : Type} (f : State → State)
    (x : EStateM.Result Stop State α) : finalState (mapState f x) = f (finalState x) := by
  cases x <;> rfl

/-- Only the state that is left behind is replaced. -/
theorem mapState_congr {α : Type} {f g : State → State} {x : EStateM.Result Stop State α}
    (h : f (finalState x) = g (finalState x)) : mapState f x = mapState g x := by
  cases x with
  | ok a s => exact congrArg (EStateM.Result.ok a) h
  | error e s => exact congrArg (EStateM.Result.error e) h

@[simp] theorem State.after_zero (s : State) : s.after 0 0 = s := rfl

@[simp] theorem State.nested_zero (s : State) : s.nested 0 = s := by simp [State.nested]

/-- Two moves are one move by the sums. -/
@[simp] theorem State.after_after (s : State) (k n k' n' : Nat) :
    (s.after k n).after k' n' = s.after (k + k') (n + n') := by
  simp [State.after, Nat.add_assoc]

/-- Levels that are opened one after the other are open together. -/
@[simp] theorem State.nested_nested (s : State) (d d' : Nat) :
    (s.nested d).nested d' = s.nested (d + d') := by
  simp [State.nested, Int.add_assoc]

/-- Moving on leaves the open levels open. -/
@[simp] theorem State.nested_after (s : State) (d k n : Nat) :
    (s.nested d).after k n = (s.after k n).nested d := rfl

@[simp] theorem State.rest_after (s : State) (k n : Nat) : (s.after k n).rest = s.rest.drop k := by
  simp [State.rest, State.after, List.drop_drop]

@[simp] theorem State.rest_nested (s : State) (d : Nat) : (s.nested d).rest = s.rest := rfl

@[simp] theorem State.depth_after (s : State) (k n : Nat) : (s.after k n).depth = s.depth := rfl

@[simp] theorem State.depth_nested (s : State) (d : Nat) : (s.nested d).depth = s.depth + d := rfl

@[simp] theorem State.limit_after (s : State) (k n : Nat) : (s.after k n).limit = s.limit := rfl

@[simp] theorem State.limit_nested (s : State) (d : Nat) : (s.nested d).limit = s.limit := rfl

@[simp] theorem State.released_after (s : State) (k n : Nat) :
    (s.after k n).arena.released = s.arena.released := rfl

@[simp] theorem State.released_nested (s : State) (d : Nat) :
    (s.nested d).arena.released = s.arena.released := rfl

/-- The tokens that remain, counted. -/
theorem State.length_rest (s : State) : s.rest.length = s.tokens.size - s.pos := by
  simp [State.rest]

/-- The first of the tokens that remain is the one at the cursor. -/
theorem State.getElem?_of_rest {s : State} {t : Token} {r : List Token} (h : s.rest = t :: r) :
    s.tokens[s.pos]? = some t := by
  have hd : (s.tokens.toList.drop s.pos)[0]? = some t := by
    rw [show s.tokens.toList.drop s.pos = t :: r from h]
    rfl
  simpa using hd

/-- Where tokens remain, the cursor is in range. -/
theorem State.pos_lt_of_rest {s : State} {t : Token} {r : List Token} (h : s.rest = t :: r) :
    s.pos < s.tokens.size :=
  (Array.getElem?_eq_some_iff.mp (State.getElem?_of_rest h)).1

/-- A sequence that ends with the end of the input goes on after any other token. -/
theorem isTerminated_cons {t : Token} {r : List Token} (h : isTerminated (t :: r) = true) :
    r = [] ∧ t.lexeme = .eof ∨ ∃ u v, r = u :: v ∧ isTerminated r = true := by
  cases r with
  | nil => exact Or.inl ⟨rfl, by simpa [isTerminated] using h⟩
  | cons u v => exact Or.inr ⟨u, v, rfl, by simpa [isTerminated] using h⟩

/-- Only a sequence with tokens ends with the end of the input. -/
theorem isTerminated_ne_nil {ts : List Token} (h : isTerminated ts = true) : ts ≠ [] := by
  rintro rfl
  simp [isTerminated] at h

/-- Tokens and then the end of the input make a terminated sequence. -/
theorem isTerminated_append_singleton (ts : List Token) {e : Token} (he : e.lexeme = .eof) :
    isTerminated (ts ++ [e]) = true := by
  simp [isTerminated, he]

/-- The cursor stands on a token and the end of the input is ahead exactly if the cursor is in range
of tokens that end with it. -/
theorem State.ready_iff {s : State} :
    s.Ready ↔ isTerminated s.tokens.toList = true ∧ s.pos < s.tokens.size := by
  rw [State.Ready, State.rest, isTerminated, isTerminated, List.getLast?_drop, Array.length_toList]
  by_cases h : s.tokens.size ≤ s.pos
  · simp [h]
  · simp [h, Nat.lt_of_not_le h]

namespace State.Ready

variable {s : State}

/-- There is a token at the cursor. -/
theorem exists_cons (h : s.Ready) : ∃ t r, s.rest = t :: r :=
  List.exists_cons_of_ne_nil (isTerminated_ne_nil h)

/-- At the last token the cursor stays, and it moves on from any other. -/
theorem cases (h : s.Ready) {t : Token} {r : List Token} (hr : s.rest = t :: r) :
    r = [] ∧ t.lexeme = .eof ∨ (∃ u v, r = u :: v) ∧ ∀ n, (s.after 1 n).Ready := by
  have ht : isTerminated (t :: r) = true := hr ▸ (h : isTerminated s.rest = true)
  rcases isTerminated_cons ht with hl | ⟨u, v, hv, ht⟩
  · exact Or.inl hl
  · refine Or.inr ⟨⟨u, v, hv⟩, fun n => ?_⟩
    simpa [State.Ready, hr] using ht

/-- The cursor moves on from any token but the end of the input. -/
theorem after_one (h : s.Ready) {t : Token} {r : List Token} (hr : s.rest = t :: r)
    (ht : t.lexeme ≠ .eof) : (∃ u v, r = u :: v) ∧ ∀ n, (s.after 1 n).Ready :=
  (h.cases hr).resolve_left fun he => ht he.2

/-- Open levels do not matter. -/
theorem nested (h : s.Ready) (d : Nat) : (s.nested d).Ready := h

end State.Ready

section Elementary

variable {α β : Type} {s : State} {t u : Token} {r : List Token}

/-- Two parsers in a row. -/
theorem bind_apply (p : Parser α) (f : α → Parser β) (s : State) :
    (p >>= f) s = match p s with
      | .ok a s' => f a s'
      | .error e s' => .error e s' := by
  simp only [bind, EStateM.bind]
  cases p s <;> rfl

theorem bind_of_ok {p : Parser α} {f : α → Parser β} {a : α} {s' : State}
    (h : p s = .ok a s') : (p >>= f) s = f a s' := by
  rw [bind_apply, h]

theorem bind_of_error {p : Parser α} {f : α → Parser β} {e : Stop} {s' : State}
    (h : p s = .error e s') : (p >>= f) s = .error e s' := by
  rw [bind_apply, h]

/-- Two parsers in a row succeed only if each of them does. -/
theorem bind_eq_ok {p : Parser α} {f : α → Parser β} {b : β} {s' : State}
    (h : (p >>= f) s = .ok b s') : ∃ a s₁, p s = .ok a s₁ ∧ f a s₁ = .ok b s' := by
  rw [bind_apply] at h
  split at h
  · rename_i a s₁ hp
    exact ⟨a, s₁, hp, h⟩
  · cases h

theorem current_eq (h : s.rest = t :: r) : current s = .ok t s := by
  simp [current, State.getElem?_of_rest h]

theorem current_bind (h : s.rest = t :: r) (f : Token → Parser β) : (current >>= f) s = f t s :=
  bind_of_ok (current_eq h)

/-- Whether the cursor stands on the last token. -/
private theorem pos_succ_lt (h : s.rest = t :: r) : s.pos + 1 < s.tokens.size ↔ r ≠ [] := by
  have hl := s.length_rest
  rw [h, List.length_cons] at hl
  cases r with
  | nil => simp only [List.length_nil] at hl; simp; omega
  | cons _ _ => simp only [List.length_cons] at hl; simp; omega

theorem advance_eq (h : s.rest = t :: u :: r) : advance s = .ok t (s.after 1 0) := by
  have hlt := (pos_succ_lt h).mpr (List.cons_ne_nil u r)
  simp [advance, State.getElem?_of_rest h, hlt, State.after]

theorem advance_last (h : s.rest = [t]) : advance s = .ok t s := by
  have hlt := mt (pos_succ_lt h).mp (by simp)
  simp [advance, State.getElem?_of_rest h, hlt]

theorem advance_bind (h : s.rest = t :: u :: r) (f : Token → Parser β) :
    (advance >>= f) s = f t (s.after 1 0) :=
  bind_of_ok (advance_eq h)

theorem skip_eq (h : s.rest = t :: u :: r) : discard advance s = .ok () (s.after 1 0) := by
  show EStateM.map _ advance s = _
  rw [EStateM.map, advance_eq h]

theorem skip_last (h : s.rest = [t]) : discard advance s = .ok () s := by
  show EStateM.map _ advance s = _
  rw [EStateM.map, advance_last h]

theorem skip_bind (h : s.rest = t :: u :: r) (f : Unit → Parser β) :
    (discard advance >>= f) s = f () (s.after 1 0) :=
  bind_of_ok (skip_eq h)

/-- The token after the one at the cursor is looked at without moving there. -/
theorem peek_bind (h : s.rest = t :: u :: r) (f : Token → Parser β) :
    (peek 1 >>= f) s = f u s := by
  have hlt := (pos_succ_lt h).mpr (List.cons_ne_nil u r)
  have hu : s.tokens[s.pos + 1]? = some u := by
    have := State.getElem?_of_rest (s := s.after 1 0) (t := u) (r := r) (by simp [h])
    simpa [State.after] using this
  have hsize : (s.pos : Int) + 1 < s.tokens.size := by omega
  have hpos : ¬ (s.pos : Int) + 1 < 0 := by omega
  refine bind_of_ok ?_
  simp only [peek, hsize, hpos, ite_true, ite_false]
  rw [show ((s.pos : Int) + 1).toNat = s.pos + 1 by omega, hu]

theorem reject_eq (h : s.rest = t :: r) (cause : Lexeme → Cause) :
    (reject cause : Parser α) s = .error (.fault (t.fault cause)) s := by
  rw [reject, current_bind h]
  rfl

/-- The level counts before it is compared with the limit. -/
theorem enter_eq (s : State) : enter s =
    if s.limit < s.depth + 1 then reject (.nestingTooDeep · s.limit) (s.nested 1)
    else .ok () (s.nested 1) := by
  show (if s.limit < s.depth + 1 then reject _ else pure () : Parser Unit) (s.nested 1) = _
  split <;> rfl

/-- A level opens up to the limit. -/
theorem enter_bind (hd : s.depth < s.limit) (f : Unit → Parser β) :
    (enter >>= f) s = f () (s.nested 1) := by
  refine bind_of_ok ?_
  rw [enter_eq, if_neg (by omega)]

/-- A level beyond the limit is a fault, and is open all the same. -/
theorem enter_bind_of_le (h : s.rest = t :: r) (hd : s.limit ≤ s.depth) (f : Unit → Parser β) :
    (enter >>= f) s = .error (.fault (t.fault (.nestingTooDeep · s.limit))) (s.nested 1) := by
  refine bind_of_error ?_
  rw [enter_eq, if_pos (by omega)]
  exact reject_eq (s := s.nested 1) h _

/-- Closing levels undoes opening them. -/
theorem leave_bind (d : Nat) (f : Unit → Parser β) : (leave d >>= f) (s.nested d) = f () s := by
  refine bind_of_ok ?_
  show EStateM.Result.ok () _ = _
  simp [State.nested]

theorem allocate_eq (h : s.arena.released = false) (e : Expr) :
    allocate e s = .ok e (s.after 0 1) := by
  simp [allocate, Arena.own, h, State.after]

theorem allocate_of_released (h : s.arena.released = true) (e : Expr) :
    allocate e s = .error .released s := by
  simp [allocate, Arena.own, h]

theorem underSigns_eq (h : s.arena.released = false) (read : List (Sign × Span)) (e : Expr) :
    underSigns read e s = .ok (e.under read) (s.after 0 read.length) := by
  induction read generalizing s e with
  | nil => rfl
  | cons p read ih =>
    rw [underSigns, bind_of_ok (allocate_eq h _), ih (s := s.after 0 1) h]
    simp [Expr.under, Nat.add_comm]

-- The equations of the rules are derived here once, for all proofs that rewrite with them.
attribute [grind =] signs Rule.readWithin

/-- Without steps nothing is read. -/
theorem Rule.readWithin_zero (r : Rule) (s : State) :
    r.readWithin 0 s = .error .outOfFuel s := by
  cases r <;> rfl

/-- A group or an argument list closes at a closing parenthesis. -/
theorem close_bind (h : s.rest = t :: u :: r) (ht : t.lexeme = .rparen) (f : Unit → Parser β) :
    (close >>= f) (s.nested 1) = f () (s.after 1 0) := by
  refine bind_of_ok ?_
  rw [close, leave_bind, current_bind h]
  simp only [ht, ne_eq, not_true_eq_false, ite_false]
  exact skip_eq h

/-- Any other token in the place of a closing parenthesis is a fault. -/
theorem close_bind_of_ne (h : s.rest = t :: r) (ht : t.lexeme ≠ .rparen) (f : Unit → Parser β) :
    (close >>= f) (s.nested 1) = .error (.fault (t.fault .expectedRParen)) s := by
  refine bind_of_error ?_
  rw [close, leave_bind, current_bind h]
  simp only [ht, ne_eq, not_false_eq_true, ite_true]
  exact bind_of_error (reject_eq h _)

end Elementary

end Parser

end Reckoner
