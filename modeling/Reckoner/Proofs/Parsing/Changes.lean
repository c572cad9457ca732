import Reckoner.Proofs.Parsing.Simulations

/-!
# What a parser only hands on

A parser never looks at the spans of its tokens and never at the nodes that were counted before it
started, and it looks at the limit only where it opens a level. So a run goes the same way from a
state in which these are changed: the tokens stand at other places, more nodes were counted, and the
limit is greater, unless the run ends because of the limit. The end is changed in the same way. This
is a simulation.
-/

namespace Reckoner

/-- A stop because of a level too many. -/
def Stop.IsTooDeep : Stop → Prop
  | .fault f => ∃ l n, f.cause = .nestingTooDeep l n
  | _ => False

/-- A stop that a greater limit may remove: a level too many, or no token to blame for it. -/
def Stop.MayBeTooDeep (stop : Stop) : Prop := stop.IsTooDeep ∨ ∃ loaded, stop = .noToken loaded

namespace Parser

/-- A change of what a parser only hands on. -/
structure Change where
  /-- The new places of the spans. -/
  place : Span → Span
  /-- The levels by which the limit is greater. -/
  levels : Nat
  /-- The nodes that were counted before. -/
  nodes : Nat

/-- A changed state. -/
def State.change (s : State) (c : Change) : State :=
  { s with
    tokens := s.tokens.map (Token.relocate c.place)
    limit := s.limit + c.levels
    arena := { s.arena with size := s.arena.size + c.nodes } }

@[simp] theorem State.getElem?_change (s : State) (c : Change) (i : Nat) :
    (s.change c).tokens[i]? = s.tokens[i]?.map (Token.relocate c.place) := Array.getElem?_map

@[simp] theorem State.size_change (s : State) (c : Change) :
    (s.change c).tokens.size = s.tokens.size := Array.size_map

@[simp] theorem State.isEmpty_change (s : State) (c : Change) :
    (s.change c).tokens.isEmpty = s.tokens.isEmpty := by
  rw [Array.isEmpty, Array.isEmpty, State.size_change]

@[simp] theorem State.pos_change (s : State) (c : Change) : (s.change c).pos = s.pos := rfl

@[simp] theorem State.fuel_change (s : State) (c : Change) : (s.change c).fuel = s.fuel := by
  rw [State.fuel, State.fuel, State.size_change, State.pos_change]

namespace Change

variable {α β : Type} (c : Change)

/-- A changed end, with a result that corresponds. -/
def result (φ : α → β) : EStateM.Result Stop State α → EStateM.Result Stop State β
  | .ok a s => .ok (φ a) (s.change c)
  | .error e s => .error (e.relocate c.place) (s.change c)

/-- The reason for an end is not removed: the limit stays as it is, or it is not the reason. -/
def Keeps (x : EStateM.Result Stop State α) : Prop :=
  c.levels = 0 ∨ ∀ e s, x = .error e s → ¬ e.MayBeTooDeep

/-- The second parser does from changed states what the first one does. -/
def Carries (φ : α → β) (p : Parser α) (q : Parser β) : Prop :=
  ∀ s, c.Keeps (p s) → q (s.change c) = c.result φ (p s)

end Change

/-- The end of the input is the end wherever it is. -/
@[simp] theorem isTerminated_relocate (place : Span → Span) (ts : List Token) :
    isTerminated (ts.map (Token.relocate place)) = isTerminated ts := by
  rw [isTerminated, isTerminated, List.getLast?_map, Option.any_map]
  rfl

namespace Change.Carries

variable {α β γ δ : Type} {c : Change}

/-- Two parsers in a row are carried one by one. -/
theorem bind {φ : α → β} {ψ : γ → δ} {p : Parser α} {q : Parser β} {f : α → Parser γ}
    {g : β → Parser δ} (hp : c.Carries φ p q) (hf : ∀ a, c.Carries ψ (f a) (g (φ a))) :
    c.Carries ψ (p >>= f) (q >>= g) := by
  intro s hs
  cases hx : p s with
  | ok a s' =>
    have hq := hp s (.inr fun e s' he => by simp [hx] at he)
    rw [hx] at hq
    rw [bind_of_ok hx] at hs ⊢
    rw [bind_of_ok hq]
    exact hf a s' hs
  | error e s' =>
    have hq := hp s (by
      rw [bind_of_error hx] at hs
      exact hs.imp_right fun h e₁ s₁ he => h e₁ s₁ (by rw [hx] at he; cases he; rfl))
    rw [hx] at hq
    rw [bind_of_error hx, bind_of_error hq]
    rfl

theorem pure (φ : α → β) (a : α) : c.Carries φ (Pure.pure a) (Pure.pure (φ a)) :=
  fun _ _ => rfl

/-- A stop is carried to its new place. -/
theorem throw (φ : α → β) (e : Stop) :
    c.Carries φ (throw e) (throw (e.relocate c.place)) := fun _ _ => rfl

theorem current : c.Carries (Token.relocate c.place) current current := by
  rintro s -
  unfold Parser.current
  rw [State.isEmpty_change, State.pos_change, State.getElem?_change]
  cases s.tokens[s.pos]? <;> rfl

theorem advance : c.Carries (Token.relocate c.place) advance advance := by
  rintro s -
  unfold Parser.advance
  rw [State.isEmpty_change, State.pos_change, State.size_change, State.getElem?_change]
  cases s.tokens[s.pos]? with
  | none => rfl
  | some t =>
    by_cases h : s.pos + 1 < s.tokens.size
    · simp only [Option.map_some, if_pos h]
      rfl
    · simp only [Option.map_some, if_neg h]
      rfl

/-- A token is looked at in the same place, from wherever it is counted. -/
theorem peek (offset : Int) : c.Carries (Token.relocate c.place) (peek offset) (peek offset) := by
  rintro s -
  unfold Parser.peek
  dsimp only
  rw [State.isEmpty_change, State.pos_change, State.size_change, State.getElem?_change]
  generalize (if (s.pos : Int) + offset < s.tokens.size then _ else _ : Int) = j
  by_cases hj : j < 0
  · rw [if_pos hj, if_pos hj]
    rfl
  · rw [if_neg hj, if_neg hj]
    cases s.tokens[j.toNat]? <;> rfl

/-- A syntax fault is carried to the place of its token. -/
theorem reject (φ : α → β) (cause : Lexeme → Cause) :
    c.Carries φ (reject cause) (reject cause) := current.bind fun _ => throw φ _

/-- Where the limit is in the way, a greater one may not be. -/
private theorem not_keeps_reject (limit : Int) (s : State) :
    ¬ ∀ e s', (Parser.reject (.nestingTooDeep · limit) s : EStateM.Result Stop State Unit) =
      .error e s' → ¬ e.MayBeTooDeep := by
  intro h
  cases ht : s.tokens[s.pos]? with
  | none =>
    refine h (.noToken !s.tokens.isEmpty) s (bind_of_error ?_) (.inr ⟨_, rfl⟩)
    rw [Parser.current, ht]
  | some t =>
    have hcurrent : Parser.current s = .ok t s := by rw [Parser.current, ht]
    refine h (.fault (t.fault (.nestingTooDeep · limit))) s ?_ (.inl ⟨_, _, rfl⟩)
    rw [Parser.reject, bind_of_ok hcurrent]
    rfl

/-- A level is opened as before, unless the limit is another one and was in the way. -/
theorem enter : c.Carries id enter enter := by
  intro s hs
  have hlimit : (s.change c).limit = s.limit + c.levels := rfl
  have hdepth : (s.change c).depth = s.depth := rfl
  rw [enter_eq] at hs ⊢
  rw [enter_eq, hlimit, hdepth]
  by_cases hd : s.limit < s.depth + 1
  · rw [if_pos hd] at hs ⊢
    have hlevels : c.levels = 0 := hs.elim id fun h => (not_keeps_reject _ _ h).elim
    have hreject := reject (c := c) (id : Unit → Unit) (.nestingTooDeep · s.limit) (s.nested 1)
    rw [if_pos (by omega), hlevels, Int.ofNat_zero, Int.add_zero]
    exact hreject hs
  · rw [if_neg hd, if_neg (by omega)]
    rfl

theorem leave (levels : Nat) : c.Carries id (leave levels) (leave levels) := fun _ _ => rfl

theorem allocate (e : Expr) :
    c.Carries (Expr.relocate c.place) (allocate e) (allocate (e.relocate c.place)) := by
  rintro s -
  cases h : s.arena.released with
  | false =>
    rw [allocate_eq h, allocate_eq (s := s.change c) h]
    simp [Change.result, State.change, State.after, Nat.add_right_comm]
  | true =>
    rw [allocate_of_released h, allocate_of_released (s := s.change c) h]
    rfl

/-- The same function is looked up. -/
theorem lookUp {φ : α → β} {p : Token → Function → Parser α} {q : Token → Function → Parser β}
    (hp : ∀ t f, c.Carries φ (p t f) (q (t.relocate c.place) f)) :
    c.Carries φ (lookUp p) (lookUp q) := by
  refine current.bind fun t => ?_
  rw [Token.name?_relocate]
  cases Function.ofName? (t.name?.getD "None") with
  | none => exact reject φ _
  | some f => exact hp t f

end Change.Carries

/-- Carrying over a change is a simulation. -/
def Change.simulation (c : Change) : Simulation c.place (Token.relocate c.place) 0 where
  Rel := c.Carries
  completes := completes_relocate c.place
  bind := .bind
  pure := .pure
  exhausted φ q hq := by
    rw [hq rfl]
    exact .throw φ .outOfFuel
  missing ht hv := by
    obtain rfl := Lexeme.number.inj (ht.symm.trans hv)
    exact .throw _ .missingValue
  current := .current
  advance := .advance
  enter := .enter
  leave := .leave
  allocate := .allocate
  reject φ cause _ := .reject φ cause
  lookUp := .lookUp
  afterName name span hcall := .bind (.peek 1) fun next =>
    (completes_relocate c.place).ite (by simp) (by simp) next hcall
      (.bind (.bind .advance fun _ => .pure id ()) fun _ => .allocate (.name name span))

/-- Parsing a sequence is carried to parsing the same tokens at other places. -/
theorem parse_carries (c : Change) (ts : List Token) :
    c.Carries (Expr.relocate c.place) (parse ts) (parse (ts.map (Token.relocate c.place))) := by
  intro s hs
  cases h : isTerminated ts with
  | false =>
    rw [parse_unterminated h, parse_unterminated (by rw [isTerminated_relocate, h])]
    rfl
  | true =>
    have hloaded : (s.change c).loaded (ts.map (Token.relocate c.place)) =
        (s.loaded ts).change c := by
      simp [State.loaded, State.change]
    rw [parse_eq_readWithin h] at hs ⊢
    rw [parse_eq_readWithin (by rw [isTerminated_relocate, h]), hloaded, State.fuel_change]
    exact c.simulation.sum _ _ hs

/-- With another count of nodes and under a greater limit a sequence is parsed in the same way. -/
theorem parse_change {levels nodes : Nat} {ts : List Token} {s : State}
    (h : Change.Keeps ⟨id, levels, nodes⟩ (parse ts s)) :
    parse ts (s.change ⟨id, levels, nodes⟩) =
      mapState (·.change ⟨id, levels, nodes⟩) (parse ts s) := by
  have hcarried := parse_carries ⟨id, levels, nodes⟩ ts s h
  rw [Token.relocate_id, List.map_id] at hcarried
  refine hcarried.trans ?_
  cases parse ts s with
  | ok t s' => rw [Change.result, Expr.relocate_id, mapState]
  | error e s' => rw [Change.result, Stop.relocate_id, mapState]

end Parser

end Reckoner
