import Reckoner.Proofs.Parsing.Reruns

/-!
# Nothing behind the first end of the input is read

A sequence put together by hand may go on behind an end of the input. No parser looks there: an end
of the input is no operator and no operand, closes nothing, and is not passed. So a parser goes the
same way whatever tokens follow, and every move keeps the cursor before the first end of the input:
the tokens from the cursor on stay sealed, that is, they have one end of the input and it is the
last of them.
-/

namespace Reckoner.Parser

/-- The only end of the input among the tokens from the cursor on is the last of them. -/
def State.Sealed (s : State) : Prop :=
  ∃ us e, s.rest = us ++ [e] ∧ (∀ u ∈ us, u.lexeme ≠ .eof) ∧ e.lexeme = .eof

namespace State.Sealed

variable {s : State} {t : Token} {r : List Token}

/-- Sealed tokens end with the end of the input. -/
theorem ready (h : s.Sealed) : s.Ready := by
  obtain ⟨us, e, hus, -, he⟩ := h
  rw [State.Ready, hus]
  exact isTerminated_append_singleton us he

/-- The cursor stands on one of the tokens. -/
theorem pos_lt (h : s.Sealed) : s.pos < s.tokens.size := (State.ready_iff.mp h.ready).2

/-- Passing a token that does not end the input leaves the end ahead. -/
theorem after_one (h : s.Sealed) (hr : s.rest = t :: r) (ht : t.lexeme ≠ .eof) :
    (s.after 1 0).Sealed := by
  obtain ⟨us, e, hus, hne, he⟩ := h
  rw [hr] at hus
  cases us with
  | nil =>
    obtain ⟨rfl, -⟩ := List.cons.inj hus
    exact absurd he ht
  | cons u us =>
    obtain ⟨-, rfl⟩ := List.cons.inj hus
    exact ⟨us, e, by simp [hr], fun v hv => hne v (List.mem_cons_of_mem u hv), he⟩

end State.Sealed

variable {cut : Prop} {a b : Stage × State}

theorem Move.isSealed (h : Move a b) (ha : a.2.Sealed) : b.2.Sealed := by
  cases h with
  | pass hr h => exact State.Sealed.after_one ha hr h.ne_eof
  | count | leave | loosen => exact ha

/-- A parser stops before the end of the input. -/
theorem Halt.isSealed {e : Stop} {s' : State} (h : Halt cut a e s') (ha : a.2.Sealed) :
    s'.Sealed := by
  cases h with
  | wrong | unclosed | released | exhausted => exact ha
  | missing hr ht => exact State.Sealed.after_one ha hr (by simp [ht])
  | @tooDeep _ _ _ _ _ _ _ _ k hr hpasses _ _ _ hk =>
    obtain rfl | rfl := Nat.le_one_iff_eq_zero_or_eq_one.mp hk
    · exact ha
    · exact State.Sealed.after_one ha hr hpasses.ne_eof

/-- A path from sealed tokens ends at sealed tokens. -/
theorem Arrives.isSealed {α : Type} {stage : α → Stage} {x : EStateM.Result Stop State α}
    (h : Arrives cut a stage x) (ha : a.2.Sealed) : (finalState x).Sealed := by
  cases x with
  | ok x s => exact Moves.keeps (P := fun a => a.2.Sealed) Move.isSealed h ha
  | error e s =>
    obtain ⟨b, hmoves, hhalt⟩ := h
    exact hhalt.isSealed (hmoves.keeps (P := fun a => a.2.Sealed) Move.isSealed ha)

section Sequences

variable {ts others : List Token} {e : Token}

/-- A sequence up to its first end of the input is sealed. -/
private theorem sealed_loaded (hts : ∀ t ∈ ts, t.lexeme ≠ .eof) (he : e.lexeme = .eof)
    (s : State) : (s.loaded (ts ++ [e])).Sealed :=
  ⟨ts, e, State.rest_loaded s _, hts, he⟩

/-- A longer sequence is loaded as a shorter one that is followed by what it is longer by. -/
private theorem loaded_append_cons (s : State) (ts : List Token) (e : Token)
    (others : List Token) :
    s.loaded (ts ++ e :: others) = (s.loaded (ts ++ [e])).followedBy others := by
  simp [State.loaded, State.followedBy]

/-- Reading a sequence does not pass its first end of the input, however soon it is cut off. -/
private theorem pos_readWithin_le (hts : ∀ t ∈ ts, t.lexeme ≠ .eof) (he : e.lexeme = .eof)
    (s : State) (n : Nat) :
    (finalState (Rule.sum.readWithin n (s.loaded (ts ++ e :: others)))).pos ≤ ts.length := by
  have hsealed := sealed_loaded hts he s
  have hread : Goes _ .start (s.loaded (ts ++ [e])) (Rule.sum.readWithin n) fun _ => .complete :=
    Rule.sum.goes n hsealed.ready (.inl rfl)
  have htokens := (Rule.sum.conduct n (s.loaded (ts ++ [e]))).tokens_eq
  have hlt := (hread.arrives.isSealed hsealed).pos_lt
  rw [htokens, State.loaded, List.size_toArray, List.length_append, List.length_singleton] at hlt
  rw [loaded_append_cons, hread.same, finalState_mapState]
  exact Nat.le_of_lt_succ hlt

/-- Behind the first end of the input no token is read: a sequence that goes on there is parsed as
the sequence that ends there, to the same expression or for the same reason to none, with as many
nodes, with the cursor at the same place and at the same depth. The cursor has not passed the first
end of the input when the parser ends, nor when its reading is cut off by any bound on the steps. -/
theorem parse_append_cons (hts : ∀ t ∈ ts, t.lexeme ≠ .eof) (he : e.lexeme = .eof)
    (hothers : isTerminated others = true) (s : State) :
    parse (ts ++ e :: others) s = mapState (·.followedBy others) (parse (ts ++ [e]) s) ∧
    (finalState (parse (ts ++ e :: others) s)).pos ≤ ts.length ∧
    ∀ n, (finalState (Rule.sum.readWithin n (s.loaded (ts ++ e :: others)))).pos ≤ ts.length := by
  have hterm := isTerminated_append_singleton ts he
  have hterm' : isTerminated (ts ++ e :: others) = true := by
    have hne := isTerminated_ne_nil hothers
    rwa [List.append_cons, isTerminated, List.getLast?_append_of_ne_nil _ hne]
  have hsame : parse (ts ++ e :: others) s =
      mapState (·.followedBy others) (parse (ts ++ [e]) s) := by
    -- More tokens mean a greater bound on the steps; both runs are compared under one.
    obtain ⟨n, hn, hn'⟩ : ∃ n, (s.loaded (ts ++ [e])).fuel ≤ n ∧
        (s.loaded (ts ++ e :: others)).fuel ≤ n := ⟨_, Nat.le_max_left _ _, Nat.le_max_right _ _⟩
    rw [parse_eq_of_le hterm' s hn', parse_eq_of_le hterm s hn, loaded_append_cons]
    exact (goes_sum n (sealed_loaded hts he s).ready).same others
  refine ⟨hsame, ?_, pos_readWithin_le hts he s⟩
  have hpos := pos_parse_lt hterm s
  rw [List.length_append, List.length_singleton] at hpos
  rw [hsame, finalState_mapState]
  exact Nat.le_of_lt_succ hpos

/-- The tokens of `(x`. -/
private def openedName : List Token :=
  [⟨.lparen, ⟨0, 1⟩⟩, ⟨.identifier (some "x"), ⟨1, 2⟩⟩]

/-- The parenthesis that closes the group of `(x`, and another end of the input. -/
private def closedBehind : List Token := [⟨.rparen, ⟨2, 3⟩⟩, ⟨.eof, ⟨3, 3⟩⟩]

/-- The group of `(x` is not closed by a parenthesis behind the end of the input. -/
theorem parse_append_cons_closing :
    (∀ t ∈ openedName, t.lexeme ≠ .eof) ∧ isTerminated closedBehind = true ∧
    ∃ s', parse (openedName ++ [⟨.eof, ⟨2, 2⟩⟩]) (.initial .empty 1) =
        .error (.fault ⟨.expectedRParen .eof, ⟨2, 2⟩⟩) s' ∧
      parse (openedName ++ ⟨.eof, ⟨2, 2⟩⟩ :: closedBehind) (.initial .empty 1) =
        .error (.fault ⟨.expectedRParen .eof, ⟨2, 2⟩⟩) (s'.followedBy closedBehind) ∧
      s'.pos = 2 ∧ s'.arena.size = 1 := by
  have hts : ∀ t ∈ openedName, t.lexeme ≠ .eof := by decide
  have hclosing : isTerminated closedBehind = true := by decide
  have h : parse (openedName ++ [⟨.eof, ⟨2, 2⟩⟩]) (.initial .empty 1) =
      .error (.fault ⟨.expectedRParen .eof, ⟨2, 2⟩⟩) _ := rfl
  obtain ⟨hsame, -⟩ := parse_append_cons (e := ⟨.eof, ⟨2, 2⟩⟩) hts rfl hclosing (.initial .empty 1)
  rw [h] at hsame
  exact ⟨hts, hclosing, _, h, hsame, rfl, rfl⟩

end Sequences

end Reckoner.Parser
