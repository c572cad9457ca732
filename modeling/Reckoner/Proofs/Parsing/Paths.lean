import Reckoner.Proofs.Parsing.Moves

/-!
# Readings are paths

Reading what a rule describes goes a path from the stage at which the rule begins to the one at
which it ends. This is proved once, rule by rule. On its path no parser looks behind the end of the
input, so that it goes the same way whatever tokens follow; and its steps do not run out if there
are as many as the rule needs for the tokens that remain: a rule that is read for another one at the
same token is tighter than that one, and all others are read further on.
-/

namespace Reckoner.Parser

open Standing

/-! ### Paths of parsers -/

/-- The same state where further tokens follow. -/
def State.followedBy (s : State) (others : List Token) : State :=
  { s with tokens := s.tokens ++ others.toArray }

/-- What follows the tokens of a state follows those from the cursor on. -/
theorem State.rest_followedBy {s : State} {t : Token} {r : List Token} (hr : s.rest = t :: r)
    (others : List Token) : (s.followedBy others).rest = t :: (r ++ others) := by
  have hpos : s.pos ≤ s.tokens.toList.length := by
    rw [Array.length_toList]
    exact Nat.le_of_lt (s.pos_lt_of_rest hr)
  rw [State.rest, State.followedBy, Array.toList_append, List.drop_append_of_le_length hpos]
  exact congrArg (· ++ others) hr

/-- At a closing parenthesis a level is closed. -/
private theorem close_eq {s : State} {t u : Token} {r : List Token} (hr : s.rest = t :: u :: r)
    (ht : t.lexeme = .rparen) : close s = .ok () (s.passed (-1)) := by
  refine (current_bind (s := { s with depth := s.depth - (1 : Nat) }) hr _).trans ?_
  simp only [ht, ne_eq, not_true_eq_false, ite_false]
  exact skip_eq (r := r) hr

/-- Any other token is at fault. -/
private theorem close_eq_of_ne {s : State} {t : Token} {r : List Token} (hr : s.rest = t :: r)
    (ht : t.lexeme ≠ .rparen) : close s =
      .error (.fault (t.fault .expectedRParen)) { s with depth := s.depth - (1 : Nat) } := by
  refine (current_bind (s := { s with depth := s.depth - (1 : Nat) }) hr _).trans ?_
  simp only [ht, ne_eq, not_false_eq_true, ite_true]
  exact bind_of_error (reject_eq (s := { s with depth := s.depth - (1 : Nat) }) hr _)

/-- From a stage a parser goes a path, whatever tokens follow. -/
structure Goes {α : Type} (cut : Prop) (c : Stage) (s : State) (p : Parser α)
    (stage : α → Stage) : Prop where
  /-- The end is the same but for the tokens that follow. -/
  same : ∀ others, p (s.followedBy others) = mapState (·.followedBy others) (p s)
  /-- A path leads to it. -/
  arrives : Arrives cut (c, s) stage (p s)

namespace Goes

variable {α β : Type} {cut cut' : Prop} {c c₁ : Stage} {s s₁ : State} {t u o : Token}
  {r : List Token} {os : List Opening} {n : Nat} {ph : Phase} {stage : α → Stage}
  {stage' : β → Stage}

theorem mono {p : Parser α} (h : Goes cut c s p stage) (hcut : cut → cut') :
    Goes cut' c s p stage :=
  ⟨h.same, h.arrives.mono hcut⟩

/-- Two parsers in a row go one path after the other. -/
theorem bind {p : Parser α} {f : α → Parser β} (hs : s.Ready) (hp : Goes cut c s p stage)
    (hf : ∀ x s', s'.Ready → remaining (stage x, s') ≤ remaining (c, s) →
      Goes cut (stage x) s' (f x) stage') : Goes cut c s (p >>= f) stage' := by
  obtain ⟨hsame, harrives⟩ := hp
  cases hx : p s with
  | ok x s' =>
    rw [hx] at hsame harrives
    have hf := hf x s' (Moves.ready harrives hs) (Moves.remaining_le harrives)
    constructor
    · intro others
      rw [bind_of_ok hx, bind_of_ok (hsame others)]
      exact hf.same others
    · rw [bind_of_ok hx]
      have hends := hf.arrives
      cases hy : f x s' with
      | ok y s₂ =>
        rw [hy] at hends
        exact Relation.ReflTransGen.trans harrives hends
      | error e s₂ =>
        rw [hy] at hends
        obtain ⟨b, hmoves, hhalt⟩ := hends
        exact ⟨b, Relation.ReflTransGen.trans harrives hmoves, hhalt⟩
  | error e s' =>
    rw [hx] at hsame harrives
    constructor
    · intro others
      rw [bind_of_error hx, bind_of_error (hsame others)]
      rfl
    · rw [bind_of_error hx]
      exact harrives

/-- A parser goes on as another one does behind some moves. -/
theorem congr {p q : Parser α} (hq : Goes cut c₁ s₁ q stage) (hmoves : Moves (c, s) (c₁, s₁))
    (h : p s = q s₁) (h' : ∀ others, p (s.followedBy others) = q (s₁.followedBy others)) :
    Goes cut c s p stage := by
  constructor
  · intro others
    rw [h', hq.same, h]
  · have hends := hq.arrives
    rw [h]
    cases hx : q s₁ with
    | ok x s' =>
      rw [hx] at hends
      exact hmoves.trans hends
    | error e s' =>
      rw [hx] at hends
      obtain ⟨b, hmoves', hhalt⟩ := hends
      exact ⟨b, hmoves.trans hmoves', hhalt⟩

/-- A parser that stops where it is. -/
theorem halts {p : Parser α} {e : Stop} {s' : State} (hhalt : Halt cut (c, s) e s')
    (h : p s = .error e s')
    (h' : ∀ others, p (s.followedBy others) = .error e (s'.followedBy others)) :
    Goes cut c s p stage := by
  constructor
  · intro others
    rw [h', h]
    rfl
  · rw [h]
    exact ⟨_, .refl, hhalt⟩

theorem pure (stage : α → Stage) (x : α) : Goes cut (stage x) s (Pure.pure x) stage :=
  ⟨fun _ => rfl, .refl⟩

/-- A choice that does not depend on the state. -/
theorem ite {P : Prop} [Decidable P] {p q : Parser α} (hp : P → Goes cut c s p stage)
    (hq : ¬ P → Goes cut c s q stage) : Goes cut c s (if P then p else q) stage := by
  split
  · exact hp ‹_›
  · exact hq ‹_›

/-- Steps that ran out, where they may. -/
theorem exhausted (h : cut) : Goes cut c s (throw .outOfFuel : Parser α) stage :=
  halts (.exhausted h) rfl fun _ => rfl

/-- A fault of another kind than a level too many, whatever would be done after it. -/
theorem reject_bind (hs : s.Ready) {cause : Lexeme → Cause}
    (hcause : ∀ l l' n, cause l ≠ .nestingTooDeep l' n) (f : α → Parser β) :
    Goes cut c s (Parser.reject cause >>= f) stage' := by
  obtain ⟨t, r, hr⟩ := hs.exists_cons
  exact halts (.wrong hr hcause) (bind_of_error (reject_eq hr cause))
    fun others => bind_of_error (reject_eq (State.rest_followedBy hr others) cause)

theorem reject (hs : s.Ready) {cause : Lexeme → Cause}
    (hcause : ∀ l l' n, cause l ≠ .nestingTooDeep l' n) :
    Goes cut c s (Parser.reject cause : Parser α) stage := by
  obtain ⟨t, r, hr⟩ := hs.exists_cons
  exact halts (.wrong hr hcause) (reject_eq hr cause)
    fun others => reject_eq (State.rest_followedBy hr others) cause

/-- Looking at the token at the cursor is no move. -/
theorem current_bind (hr : s.rest = t :: r) {f : Token → Parser β}
    (hf : Goes cut c s (f t) stage') : Goes cut c s (current >>= f) stage' :=
  hf.congr .refl (Parser.current_bind hr f)
    fun others => Parser.current_bind (State.rest_followedBy hr others) f

/-- Looking at the token behind the one at the cursor is no move. -/
theorem peek_bind (hr : s.rest = t :: u :: r) {f : Token → Parser β}
    (hf : Goes cut c s (f u) stage') : Goes cut c s (peek 1 >>= f) stage' :=
  hf.congr .refl (Parser.peek_bind hr f)
    fun others => Parser.peek_bind (State.rest_followedBy hr others) f

/-- A token that opens no level is passed. -/
theorem pass_bind (hs : s.Ready) (hr : s.rest = t :: r) (h : c.Passes t.lexeme c₁)
    (hlength : c₁.opened.length = c.opened.length) {f : Unit → Parser β}
    (hf : (s.after 1 0).Ready → (s.after 1 0).rest.length < s.rest.length →
      Goes cut c₁ (s.after 1 0) (f ()) stage') : Goes cut c s (discard advance >>= f) stage' := by
  obtain ⟨⟨u, v, rfl⟩, hready⟩ := hs.after_one hr h.ne_eof
  have hpassed : s.passed 0 = s.after 1 0 := by
    rw [State.passed, Int.add_zero]
    rfl
  have hmove : Move (c, s) (c₁, s.passed 0) := .pass hr h (by omega) (by simp)
  rw [hpassed] at hmove
  exact (hf (hready 0) (by simp [hr])).congr (.single hmove) (Parser.skip_bind hr f)
    fun others => Parser.skip_bind (State.rest_followedBy hr others) f

/-- Passing a token that opens a level below the limit. -/
private theorem opening_move (hr : s.rest = o :: u :: r) (h : c.Passes o.lexeme c₁)
    (hlength : c₁.opened.length = c.opened.length + 1) (hd : s.depth < s.limit) :
    Move (c, s) (c₁, (s.after 1 0).nested 1) :=
  .pass (d := 1) hr h (by omega) fun _ => hd

/-- A parenthesis or the sign of a power is passed before the level that it opens is counted. -/
theorem open_bind (hs : s.Ready) (hr : s.rest = o :: r) (h : c.Passes o.lexeme c₁)
    (hlength : c₁.opened.length = c.opened.length + 1)
    (ho : o.lexeme = .lparen ∨ o.lexeme = .power) {f : Unit → Parser β}
    (hf : ((s.after 1 0).nested 1).Ready →
      ((s.after 1 0).nested 1).rest.length < s.rest.length →
        Goes cut c₁ ((s.after 1 0).nested 1) (f ()) stage') :
    Goes cut c s (discard advance >>= fun _ => enter >>= f) stage' := by
  obtain ⟨⟨u, v, rfl⟩, hready⟩ := hs.after_one hr h.ne_eof
  have hskip := Parser.skip_bind hr fun _ => enter >>= f
  have hskip' (others : List Token) := Parser.skip_bind (State.rest_followedBy hr others)
    fun _ => enter >>= f
  by_cases hd : s.depth < s.limit
  · refine (hf (hready 0) (by simp [hr])).congr (.single (opening_move hr h hlength hd)) ?_
      fun others => ?_
    · exact hskip.trans (Parser.enter_bind (s := s.after 1 0) hd f)
    · exact (hskip' others).trans
        (Parser.enter_bind (s := (s.followedBy others).after 1 0) hd f)
  · have hle : s.limit ≤ s.depth := by omega
    have hrest : (s.after 1 0).rest = u :: v := by simp [hr]
    have hrest' (others : List Token) :
        ((s.followedBy others).after 1 0).rest = u :: (v ++ others) := by
      rw [State.rest_after, State.rest_followedBy hr]
      rfl
    exact halts (.tooDeep hr h hlength hle (.behind ho rfl) (Nat.le_refl 1) hrest)
      (hskip.trans (enter_bind_of_le hrest hle f)) fun others =>
        (hskip' others).trans (enter_bind_of_le (hrest' others) hle f)

/-- A sign is passed after the level that it opens is counted. -/
theorem sign_bind (hs : s.Ready) (hr : s.rest = o :: r) (h : c.Passes o.lexeme c₁)
    (hlength : c₁.opened.length = c.opened.length + 1) {sg : Sign}
    (ho : signOf? o.lexeme = some sg) {f : Token → Parser β}
    (hf : ((s.after 1 0).nested 1).Ready →
      ((s.after 1 0).nested 1).rest.length < s.rest.length →
        Goes cut c₁ ((s.after 1 0).nested 1) (f o) stage') :
    Goes cut c s (enter >>= fun _ => advance >>= f) stage' := by
  obtain ⟨⟨u, v, rfl⟩, hready⟩ := hs.after_one hr h.ne_eof
  have hr' (others : List Token) := State.rest_followedBy hr others
  by_cases hd : s.depth < s.limit
  · refine (hf (hready 0) (by simp [hr])).congr (.single (opening_move hr h hlength hd)) ?_
      fun others => ?_
    · exact (Parser.enter_bind hd _).trans (advance_bind (s := s.nested 1) hr f)
    · exact (Parser.enter_bind (s := s.followedBy others) hd _).trans
        (advance_bind (s := (s.followedBy others).nested 1) (hr' others) f)
  · have hle : s.limit ≤ s.depth := by omega
    exact halts (.tooDeep hr h hlength hle (.sign ho) (Nat.zero_le 1) hr)
      (enter_bind_of_le hr hle _) fun others => enter_bind_of_le (hr' others) hle _

/-- Signs and exponents are left. -/
theorem leave {inner : List Opening} (h : IsInner inner) {k : Nat} (hk : inner.length = k) :
    Goes cut ⟨inner ++ os, n, .operand⟩ s (leave k) fun _ => ⟨os, n, .operand⟩ := by
  subst hk
  exact ⟨fun _ => rfl, .single (.leave inner h)⟩

/-- A node that is owed is counted. -/
theorem allocate (e : Expr) :
    Goes cut ⟨os, n + 1, ph⟩ s (allocate e) fun _ => ⟨os, n, ph⟩ := by
  cases hr : s.arena.released with
  | false =>
    exact (pure (s := s.after 0 1) (fun _ => ⟨os, n, ph⟩) e).congr (.single .count)
      (allocate_eq hr e) fun others => allocate_eq (s := s.followedBy others) hr e
  | true =>
    exact halts (.released hr) (allocate_of_released hr e)
      fun others => allocate_of_released (s := s.followedBy others) hr e

/-- A group or an argument list is closed at a closing parenthesis. -/
theorem close (hs : s.Ready) (h : ph ≠ .primary) :
    Goes cut ⟨.bracket :: os, n, ph⟩ s close fun _ => ⟨os, n, .primary⟩ := by
  obtain ⟨t, r, hr⟩ := hs.exists_cons
  have hr' (others : List Token) := State.rest_followedBy hr others
  by_cases ht : t.lexeme = .rparen
  · obtain ⟨⟨u, v, rfl⟩, -⟩ := hs.after_one hr (by simp [ht])
    have hmove : Move (⟨.bracket :: os, n, ph⟩, s) (⟨os, n, .primary⟩, s.passed (-1)) :=
      .pass hr (.rparen h ht) (by simp only [List.length_cons]; omega) (by simp)
    exact (pure (fun _ => ⟨os, n, .primary⟩) ()).congr (.single hmove)
      (close_eq hr ht) fun others => close_eq (hr' others) ht
  · exact halts (.unclosed hr) (close_eq_of_ne hr ht)
      fun others => close_eq_of_ne (hr' others) ht

/-- Each of the signs that were read has opened a level and left its node owed. -/
theorem signs (fuel : Nat) (read : List (Sign × Span)) (hs : s.Ready) :
    Goes (fuel < s.rest.length)
      ⟨List.replicate read.length .sign ++ os, n + read.length, .awaiting⟩ s (signs fuel read)
      fun read' => ⟨List.replicate read'.length .sign ++ os, n + read'.length, .awaiting⟩ := by
  induction fuel generalizing read s with
  | zero => exact exhausted (List.length_pos_iff.mpr (isTerminated_ne_nil hs))
  | succ fuel ih =>
    obtain ⟨t, r, hr⟩ := hs.exists_cons
    rw [Parser.signs]
    refine current_bind hr ?_
    cases ht : signOf? t.lexeme with
    | none => exact pure (fun read' : List (Sign × Span) =>
        ⟨List.replicate read'.length .sign ++ os, n + read'.length, .awaiting⟩) read
    | some sg =>
      refine sign_bind hs hr (.sign ht) rfl ht fun hready hlt => ?_
      exact (ih ((sg, t.span) :: read) hready).mono (by omega)

/-- The nodes of the signs are counted one by one. -/
theorem underSigns (read : List (Sign × Span)) (e : Expr) (hs : s.Ready) :
    Goes cut ⟨os, n + read.length, ph⟩ s (underSigns read e) fun _ => ⟨os, n, ph⟩ := by
  induction read generalizing s e with
  | nil => exact pure (fun _ => ⟨os, n, ph⟩) e
  | cons p read ih =>
    exact bind hs (allocate (n := n + read.length) (.signed p.1 e p.2)) fun e s' hs' _ => ih e hs'

end Goes

/-! ### Parts of rules -/

/-- What is left to do with a group behind its parenthesis. -/
def inGroup (n : Nat) : Parser Expr := do
  let e ← Rule.sum.readWithin n
  close
  pure e

/-- What is left to do with a call behind the parenthesis of its argument list. -/
def inCall (n : Nat) (f : Function) (span : Span) : Parser Expr := do
  let next ← current
  if next.lexeme = .rparen then do
    close
    allocate (.call f [] span)
  else Rule.readWithin n (.arguments f span [])

/-- The function that the token at the cursor names is looked up. -/
def lookUp {α : Type} (p : Token → Function → Parser α) : Parser α := do
  let t ← current
  match Function.ofName? (t.name?.getD "None") with
  | none => reject (.expectedPrimary · (Cause.unknownFunctionWanted (t.name?.getD "None")))
  | some f => p t f

/-- What is left to do with a call behind the name of the function. -/
def behindName (n : Nat) (f : Function) (span : Span) : Parser Expr := do
  discard advance
  enter
  inCall n f span

/-- A group starts with its parenthesis. -/
theorem readWithin_group (n : Nat) : Rule.group.readWithin (n + 1) = (do
    discard advance
    enter
    inGroup n) :=
  rfl

/-- A call starts with the name of its function. -/
theorem readWithin_call (n : Nat) : Rule.call.readWithin (n + 1) =
    lookUp (fun t f => do
      discard advance
      behindName n f t.span) :=
  rfl

/-! ### Rules -/

/-- The stage at which the reading of a rule begins, with some levels open and some nodes owed
around it. -/
def Rule.first (os : List Opening) (n : Nat) : Rule → Stage
  | .sumAfter _ | .productAfter _ => ⟨os, n, .operand⟩
  | .arguments .. => ⟨.bracket :: os, n + 1, .awaiting⟩
  | _ => ⟨os, n, .awaiting⟩

/-- The stage at which it ends. -/
def Rule.last (os : List Opening) (n : Nat) : Rule → Stage
  | .primary | .group | .call | .arguments .. => ⟨os, n, .primary⟩
  | _ => ⟨os, n, .operand⟩

/-- Where a rule is read: a chain of operators right inside a group or an argument list or in
nothing, a group at its parenthesis, and a call at its name and parenthesis. -/
def Rule.Suits (os : List Opening) (s : State) : Rule → Prop
  | .sum | .sumAfter _ | .product | .productAfter _ => IsOuter os
  | .group => ∃ t r, s.rest = t :: r ∧ t.lexeme = .lparen
  | .call => ∃ t n u r, s.rest = t :: u :: r ∧ t.lexeme = .identifier n ∧ u.lexeme = .lparen
  | _ => True

/-- The number of steps that a rule needs where so many tokens remain. -/
def Rule.need (length : Nat) : Rule → Nat
  | .group | .call => 8 * length
  | .sumAfter _ | .productAfter _ | .primary => 8 * length + 1
  | .power => 8 * length + 2
  | .signed => 8 * length + 3
  | .product => 8 * length + 4
  | .sum => 8 * length + 5
  | .arguments _ _ _ => 8 * length + 6

/-- The bound that reading sets itself is enough. -/
theorem Rule.need_le_fuel (r : Rule) (s : State) : r.need s.rest.length ≤ s.fuel := by
  rw [State.length_rest, State.fuel]
  cases r <;> simp only [Rule.need] <;> omega

/-- In so many steps a rule is read on a path from its first stage to its last one, and the steps
run out only if the rule needs more. -/
def Rule.GoesWithin (m : Nat) (r : Rule) : Prop :=
  ∀ {os : List Opening} {n : Nat} {s : State}, s.Ready → r.Suits os s →
    Goes (m < r.need s.rest.length) (r.first os n) s (r.readWithin m) fun _ => r.last os n

section Rules

variable {m n : Nat} {os : List Opening} {s : State} (ih : ∀ r : Rule, r.GoesWithin m)

include ih

/-- A group is read on a path behind its parenthesis. -/
theorem goes_inGroup (hs : s.Ready) : Goes (m < Rule.sum.need s.rest.length)
    ⟨.bracket :: os, n, .awaiting⟩ s (inGroup m) fun _ => ⟨os, n, .primary⟩ := by
  refine .bind hs (ih .sum hs (isOuter_bracket os)) fun e s₁ h₁ _ => ?_
  exact .bind h₁ (.close h₁ (by simp)) fun _ _ _ _ => .pure (fun _ => ⟨os, n, .primary⟩) e

/-- A call is read on a path behind the parenthesis of its argument list. -/
theorem goes_inCall (hs : s.Ready) (f : Function) (span : Span) :
    Goes (m < (Rule.arguments f span []).need s.rest.length)
      ⟨.bracket :: os, n + 1, .awaiting⟩ s (inCall m f span) fun _ => ⟨os, n, .primary⟩ := by
  obtain ⟨t, r, hr⟩ := hs.exists_cons
  refine .current_bind hr (.ite (fun _ => ?_) fun _ => ?_)
  · exact .bind hs (.close hs (by simp)) fun _ _ _ _ => .allocate _
  · exact ih (.arguments f span []) hs trivial

private theorem goes_after (c : Chain) (left : Expr) : (c.after left).GoesWithin (m + 1) := by
  intro os n s hs hsuits
  have hfirst (e : Expr) (n : Nat) : (c.after e).first os n = ⟨os, n, .operand⟩ := by
    cases c <;> rfl
  have hlast (e : Expr) (n : Nat) : (c.after e).last os n = ⟨os, n, .operand⟩ := by
    cases c <;> rfl
  have hneed (e : Expr) (k : Nat) : (c.after e).need k = 8 * k + 1 := by cases c <;> rfl
  have hos : IsOuter os := by cases c <;> exact hsuits
  have hafter (e : Expr) (s : State) : (c.after e).Suits os s := by cases c <;> exact hos
  have hoperand {s : State} (hs : s.Ready) (n : Nat) : Goes (m < 8 * s.rest.length + 4)
      ⟨os, n, .awaiting⟩ s (c.operand.readWithin m) fun _ => ⟨os, n, .operand⟩ := by
    cases c with
    | sum => exact ih .product hs hos
    | product =>
      have hsigned : Goes (m < 8 * s.rest.length + 3) ⟨os, n, .awaiting⟩ s
          (Rule.signed.readWithin m) fun _ => ⟨os, n, .operand⟩ := ih .signed hs trivial
      exact hsigned.mono (by omega)
  obtain ⟨t, r, hr⟩ := hs.exists_cons
  rw [c.readWithin_after, hfirst, hneed]
  simp only [hlast]
  refine .current_bind hr ?_
  cases hop : c.operator? t.lexeme with
  | none => exact .pure (fun _ => ⟨os, n, .operand⟩) left
  | some op =>
    refine .pass_bind hs hr (.operator hos hop) rfl fun h₁ hlt => ?_
    refine .bind h₁ ((hoperand h₁ _).mono (by omega)) fun right s₂ h₂ hle₂ => ?_
    refine .bind h₂ (.allocate _) fun e s₃ h₃ hle₃ => ?_
    have hle₂ : s₂.rest.length + 1 ≤ (s.after 1 0).rest.length := hle₂
    have hle₃ : s₃.rest.length + 1 ≤ s₂.rest.length + 1 := hle₃
    have hgoes := ih (c.after e) (n := n) h₃ (hafter e s₃)
    rw [hfirst, hneed] at hgoes
    simp only [hlast] at hgoes
    exact hgoes.mono (by omega)

private theorem goes_signed : Rule.signed.GoesWithin (m + 1) := by
  intro os n s hs _
  rw [Rule.readWithin]
  refine .bind hs ((Goes.signs (m + 1) [] hs).mono (by simp only [Rule.need]; omega))
    fun read s₁ h₁ hle => ?_
  have hle : s₁.rest.length ≤ s.rest.length := hle
  refine .bind h₁ ((ih .power h₁ trivial).mono (by simp only [Rule.need]; omega))
    fun e s₂ h₂ _ => ?_
  refine .bind h₂ (.underSigns read e h₂) fun e s₃ h₃ _ => ?_
  have hsigns : IsInner (List.replicate read.length .sign) := isInner_replicate _ (by simp)
  exact .bind h₃ (.leave hsigns List.length_replicate) fun _ _ _ _ =>
    .pure (fun _ => ⟨os, n, .operand⟩) e

private theorem goes_power : Rule.power.GoesWithin (m + 1) := by
  intro os n s hs _
  rw [Rule.readWithin]
  refine .bind hs ((ih .primary hs trivial).mono (by simp only [Rule.need]; omega))
    fun base s₁ h₁ hle => ?_
  have hle : s₁.rest.length + 1 ≤ s.rest.length := hle
  obtain ⟨t, r, hr⟩ := h₁.exists_cons
  refine .current_bind hr (.ite (fun _ => ?_) fun ht => ?_)
  · exact (Goes.pure (fun _ => ⟨os, n, .operand⟩) base).congr (.single .loosen) rfl fun _ => rfl
  · have hpower : t.lexeme = .power := not_not.mp ht
    refine .open_bind h₁ hr (.power hpower) rfl (.inr hpower) fun h₂ hlt => ?_
    refine .bind h₂ ((ih .signed h₂ trivial).mono (by simp only [Rule.need]; omega))
      fun x s₃ h₃ _ => ?_
    have hexponent : IsInner [.exponent] := isInner_replicate 1 (by simp)
    exact .bind h₃ (.leave hexponent rfl) fun _ _ _ _ => .allocate _

private theorem goes_primary : Rule.primary.GoesWithin (m + 1) := by
  intro os n s hs _
  obtain ⟨t, r, hr⟩ := hs.exists_cons
  rw [Rule.readWithin]
  refine .current_bind hr ?_
  cases ht : t.lexeme with
  | number v =>
    cases v with
    | none =>
      obtain ⟨⟨u, w, rfl⟩, -⟩ := hs.after_one hr (by simp [ht])
      exact .halts (.missing hr ht) (skip_bind hr _)
        fun others => skip_bind (State.rest_followedBy hr others) _
    | some v =>
      exact .pass_bind hs hr (.operand (.inl ⟨some v, ht⟩)) rfl fun _ _ => .allocate _
  | lparen => exact (ih .group hs ⟨t, r, hr, ht⟩).mono (by simp only [Rule.need]; omega)
  | identifier k =>
    -- The token behind the name is not past the end, for the name does not end the input.
    obtain ⟨⟨u, v, rfl⟩, -⟩ := hs.after_one hr (by simp [ht])
    refine .peek_bind hr (.ite (fun hu => ?_) fun _ => ?_)
    · exact (ih .call hs ⟨t, k, u, v, hr, ht, hu⟩).mono (by simp only [Rule.need]; omega)
    · exact .pass_bind hs hr (.operand (.inr ⟨k, ht⟩)) rfl fun _ _ => .allocate _
  | _ => exact .reject hs (by simp)

private theorem goes_group : Rule.group.GoesWithin (m + 1) := by
  rintro os n s hs ⟨t, r, hr, ht⟩
  rw [readWithin_group]
  refine .open_bind hs hr (.lparen (by simp) ht) rfl (.inl ht) fun h₁ hlt => ?_
  exact (goes_inGroup ih h₁).mono (by simp only [Rule.need]; omega)

private theorem goes_call : Rule.call.GoesWithin (m + 1) := by
  rintro os n s hs ⟨t, k, o, r, hr, ht, ho⟩
  rw [readWithin_call]
  refine .current_bind hr ?_
  dsimp only
  cases Function.ofName? (t.name?.getD "None") with
  | none => exact .reject hs (by simp)
  | some f =>
    refine .pass_bind hs hr (.operand (.inr ⟨k, ht⟩)) rfl fun h₁ hlt₁ => ?_
    have hr₁ : (s.after 1 0).rest = o :: r := by simp [hr]
    refine .open_bind h₁ hr₁ (.lparen (by simp) ho) rfl (.inl ho) fun h₂ hlt₂ => ?_
    exact (goes_inCall ih h₂ f t.span).mono (by simp only [Rule.need]; omega)

private theorem goes_arguments (f : Function) (span : Span) (read : List Expr) :
    (Rule.arguments f span read).GoesWithin (m + 1) := by
  intro os n s hs _
  rw [Rule.readWithin]
  refine .bind hs ((ih .sum hs (isOuter_bracket os)).mono (by simp only [Rule.need]; omega))
    fun e s₁ h₁ hle => ?_
  have hle : s₁.rest.length + 1 ≤ s.rest.length := hle
  obtain ⟨t, r, hr⟩ := h₁.exists_cons
  refine .current_bind hr (.ite (fun ht => ?_) fun _ => ?_)
  · have hpasses : Stage.Passes ⟨.bracket :: os, n + 1, .operand⟩ t.lexeme
        ⟨.bracket :: os, n + 1, .awaiting⟩ := .comma ht
    refine .pass_bind h₁ hr hpasses rfl fun h₂ hlt => ?_
    exact (ih (.arguments f span (e :: read)) h₂ trivial).mono (by simp only [Rule.need]; omega)
  · exact .bind h₁ (.close h₁ (by simp)) fun _ _ _ _ => .allocate _

/-- A chain starts with an operand. -/
private theorem goes_rule (c : Chain) : c.rule.GoesWithin (m + 1) := by
  intro os n s hs hsuits
  rw [c.readWithin_rule]
  cases c with
  | sum =>
    refine .bind hs ((ih .product hs hsuits).mono (by simp only [Chain.rule, Rule.need]; omega))
      fun left s₁ h₁ hle => ?_
    have hle : s₁.rest.length + 1 ≤ s.rest.length := hle
    exact (ih (.sumAfter left) h₁ hsuits).mono (by simp only [Chain.rule, Rule.need]; omega)
  | product =>
    refine .bind hs ((ih .signed hs trivial).mono (by simp only [Chain.rule, Rule.need]; omega))
      fun left s₁ h₁ hle => ?_
    have hle : s₁.rest.length + 1 ≤ s.rest.length := hle
    exact (ih (.productAfter left) h₁ hsuits).mono (by simp only [Chain.rule, Rule.need]; omega)

end Rules

/-- Where tokens remain, a rule needs a step at least. -/
private theorem Rule.need_pos (r : Rule) {length : Nat} (h : 0 < length) : 0 < r.need length := by
  cases r <;> simp only [Rule.need] <;> omega

/-- Reading what a rule describes goes a path from the first stage of the rule to its last one. -/
theorem Rule.goes (m : Nat) (r : Rule) : r.GoesWithin m := by
  induction m generalizing r with
  | zero =>
    intro os n s hs _
    have hzero : r.readWithin 0 = throw .outOfFuel := funext r.readWithin_zero
    exact hzero ▸ .exhausted (r.need_pos (List.length_pos_iff.mpr (isTerminated_ne_nil hs)))
  | succ m ih =>
    cases r with
    | sum => exact goes_rule ih .sum
    | sumAfter left => exact goes_after ih .sum left
    | product => exact goes_rule ih .product
    | productAfter left => exact goes_after ih .product left
    | signed => exact goes_signed ih
    | power => exact goes_power ih
    | primary => exact goes_primary ih
    | group => exact goes_group ih
    | call => exact goes_call ih
    | arguments f span read => exact goes_arguments ih f span read

end Reckoner.Parser
