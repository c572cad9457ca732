import Reckoner.Proofs.Parsing.Simulations

/-!
# The conduct of a parser

From whatever state it starts, a parser keeps to one conduct: it does not touch its tokens, its
cursor never moves back, and a fault is found at the token under the cursor. The cause is one of
five: a primary is lacking there, or a closing parenthesis is, or it names no function, or it
follows a complete expression, or it is one level too deep. What the cause says beside the lexeme is
one of two wordings, the second of which repeats the name that the lexeme carries.
-/

namespace Reckoner

/-- The causes of the faults that a parser can find at a token. -/
inductive Cause.FoundAt (t : Token) : Cause → Prop where
  /-- No primary starts here. -/
  | primary : FoundAt t (.expectedPrimary t.lexeme primaryWanted)
  /-- A name that a parenthesis follows is not that of a function. -/
  | function : FoundAt t
      (.expectedPrimary t.lexeme (unknownFunctionWanted (t.name?.getD "None")))
  /-- A group or an argument list goes on where it should be closed. -/
  | unclosed : FoundAt t (.expectedRParen t.lexeme)
  /-- The input goes on where it should end. -/
  | trailing : FoundAt t (.trailingInput t.lexeme)
  /-- A level is one too many. -/
  | tooDeep (limit : Int) : FoundAt t (.nestingTooDeep t.lexeme limit)

/-- A lexeme is that of the token at which a cause was found. -/
theorem Cause.FoundAt.found?_eq {c : Cause} {t : Token} (h : c.FoundAt t) :
    c.found? = some t.lexeme := by
  cases h <;> rfl

namespace Parser

/-- What holds of the end of every parser. -/
structure Conduct {α : Type} (s : State) (x : EStateM.Result Stop State α) : Prop where
  /-- The tokens are not touched. -/
  tokens_eq : (finalState x).tokens = s.tokens
  /-- The cursor does not move back. -/
  pos_le : s.pos ≤ (finalState x).pos
  /-- A fault is found at the token under the cursor. -/
  fault : ∀ f s', x = .error (.fault f) s' →
    ∃ t, s'.tokens[s'.pos]? = some t ∧ f.span = t.span ∧ f.cause.FoundAt t

/-- A syntax fault stands at the token under the cursor, if there is one. -/
theorem reject_apply {α : Type} (cause : Lexeme → Cause) (s : State) :
    (reject cause : Parser α) s = match s.tokens[s.pos]? with
      | some t => .error (.fault (t.fault cause)) s
      | none => .error (.noToken !s.tokens.isEmpty) s := by
  rw [reject, bind_apply, current]
  cases s.tokens[s.pos]? <;> rfl

/-- An unknown function is a fault at the token under the cursor, if there is one. -/
theorem lookUp_apply {α : Type} (p : Token → Function → Parser α) (s : State) :
    lookUp p s = match s.tokens[s.pos]? with
      | some t =>
        match Function.ofName? (t.name?.getD "None") with
        | none => .error (.fault (t.fault
            (.expectedPrimary · (Cause.unknownFunctionWanted (t.name?.getD "None"))))) s
        | some f => p t f s
      | none => .error (.noToken !s.tokens.isEmpty) s := by
  rw [lookUp, bind_apply, current]
  cases ht : s.tokens[s.pos]? with
  | none => rfl
  | some t =>
    dsimp only
    cases Function.ofName? (t.name?.getD "None") with
    | none => exact (reject_apply _ s).trans (by rw [ht])
    | some f => rfl

namespace Conduct

variable {α β : Type} {s : State}

theorem refl (a : α) (s : State) : Conduct s (.ok a s : EStateM.Result Stop State α) :=
  ⟨rfl, Nat.le_refl _, fun _ _ h => by cases h⟩

/-- A stop for another reason than a fault keeps to the conduct wherever it is. -/
theorem stop {e : Stop} (he : ∀ f, e ≠ .fault f) (s : State) :
    Conduct s (.error e s : EStateM.Result Stop State α) :=
  ⟨rfl, Nat.le_refl _, fun f _ h => absurd (EStateM.Result.error.inj h).1 (he f)⟩

/-- The conduct does not depend on how far back a parser started. -/
theorem of_le {s₁ : State} {x : EStateM.Result Stop State α} (h : Conduct s₁ x)
    (htokens : s₁.tokens = s.tokens) (hpos : s.pos ≤ s₁.pos) : Conduct s x :=
  ⟨h.tokens_eq.trans htokens, Nat.le_trans hpos h.pos_le, h.fault⟩

theorem bind {p : Parser α} {f : α → Parser β} (hp : Conduct s (p s))
    (hf : ∀ a s', Conduct s' (f a s')) : Conduct s ((p >>= f) s) := by
  rw [bind_apply]
  cases hx : p s with
  | ok a s₁ =>
    rw [hx] at hp
    exact (hf a s₁).of_le hp.tokens_eq hp.pos_le
  | error e s₁ =>
    rw [hx] at hp
    exact ⟨hp.tokens_eq, hp.pos_le, fun f s' h => hp.fault f s' (by
      obtain ⟨rfl, rfl⟩ := EStateM.Result.error.inj h
      rfl)⟩

theorem current (s : State) : Conduct s (current s) := by
  unfold Parser.current
  split
  · exact refl _ s
  · exact stop (by simp) s

theorem advance (s : State) : Conduct s (advance s) := by
  unfold Parser.advance
  split
  · refine ⟨?_, ?_, fun _ _ h => by cases h⟩
    · dsimp only [finalState]
      split <;> rfl
    · dsimp only [finalState]
      split <;> simp
  · exact stop (by simp) s

theorem peek (offset : Int) (s : State) : Conduct s (peek offset s) := by
  simp only [Parser.peek]
  split
  · exact refl _ s
  · exact stop (by simp) s

/-- What is rejected is the token under the cursor. -/
theorem reject {cause : Lexeme → Cause} (s : State)
    (h : ∀ t, s.tokens[s.pos]? = some t → (cause t.lexeme).FoundAt t) :
    Conduct s (reject cause s : EStateM.Result Stop State α) := by
  rw [reject_apply]
  split
  · rename_i t ht
    refine ⟨rfl, Nat.le_refl _, fun f s' hf => ?_⟩
    cases hf
    exact ⟨t, ht, rfl, h t ht⟩
  · exact stop (by simp) s

theorem enter (s : State) : Conduct s (enter s) := by
  rw [enter_eq]
  split
  · exact (reject (s.nested 1) fun _ _ => .tooDeep _).of_le rfl (Nat.le_refl _)
  · exact ⟨rfl, Nat.le_refl _, fun _ _ h => by cases h⟩

theorem leave (levels : Nat) (s : State) : Conduct s (leave levels s) :=
  ⟨rfl, Nat.le_refl _, fun _ _ h => by cases h⟩

theorem allocate (e : Expr) (s : State) : Conduct s (allocate e s) := by
  cases hr : s.arena.released with
  | false =>
    rw [allocate_eq hr]
    exact ⟨rfl, Nat.le_refl _, fun _ _ h => by cases h⟩
  | true =>
    rw [allocate_of_released hr]
    exact stop (by simp) s

/-- Where a name is looked up, it is that of the token under the cursor. -/
theorem lookUp {p : Token → Function → Parser α} (hp : ∀ t f s, Conduct s (p t f s)) (s : State) :
    Conduct s (lookUp p s) := by
  rw [lookUp_apply]
  cases ht : s.tokens[s.pos]? with
  | none => exact stop (by simp) s
  | some t =>
    dsimp only
    cases Function.ofName? (t.name?.getD "None") with
    | none =>
      refine ⟨rfl, Nat.le_refl _, fun f s' h => ?_⟩
      cases h
      exact ⟨t, ht, rfl, .function⟩
    | some f => exact hp t f s

end Conduct

/-- A general cause is found at the token under the cursor. -/
theorem GeneralCause.foundAt {cause : Lexeme → Cause} (h : GeneralCause cause) (t : Token) :
    (cause t.lexeme).FoundAt t := by
  cases h with
  | unopened => exact .primary
  | unclosed => exact .unclosed
  | trailing => exact .trailing

/-- The conduct is kept where parsers are put together. -/
def conductSimulation : Simulation id id 0 where
  Rel _ p _ := ∀ s, Conduct s (p s)
  completes := completes_id
  bind hp hf s := (hp s).bind hf
  pure _ a s := .refl a s
  exhausted _ _ _ s := .stop (by simp) s
  missing _ _ s := .stop (by simp) s
  current := .current
  advance := .advance
  enter := .enter
  leave := .leave
  allocate := .allocate
  reject _ _ h s := .reject s fun t _ => h.foundAt t
  lookUp hp s := .lookUp hp s
  afterName name span hcall s := (Conduct.peek 1 s).bind fun next s => by
    split
    · exact hcall s
    · exact ((Conduct.advance s).bind fun _ s => .refl () s).bind fun _ => .allocate _

/-- Reading what a rule describes keeps to the conduct. -/
theorem Rule.conduct (n : Nat) (r : Rule) (s : State) : Conduct s (r.readWithin n s) :=
  conductSimulation.rule n r s

/-- Parsing keeps to the conduct. -/
theorem conduct_parse {ts : List Token} (hts : isTerminated ts = true) (s : State) :
    Conduct (s.loaded ts) (parse ts s) := by
  rw [parse_eq_readWithin hts]
  exact conductSimulation.sum _ _

end Parser

end Reckoner
