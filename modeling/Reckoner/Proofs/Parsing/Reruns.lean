import Reckoner.Proofs.Parsing.Mirrors
import Reckoner.Proofs.Parsing.Sequence
import Reckoner.Proofs.Parsing.Steps

/-!
# Parsing another sequence in the same way

Every rule mirrors itself, so that a sequence is parsed in the same way as another one that starts
with the same tokens, as far as the end is found there: with what these tokens lack filled in, in a
state with room for deeper nesting and for further nodes. What can be derived from the one decides
with that what the parser does with the other.
-/

namespace Reckoner.Parser

section Rules

variable {g : Token → Token}

/-- A call passes the name of the function. -/
private theorem passes_call (n : Nat) : Passes (Rule.call.readWithin n) := by
  cases n with
  | zero => exact fun _ _ hw => hw
  | succ n =>
    intro s hlt hw
    have ht : s.tokens[s.pos]? = some s.tokens[s.pos] := Array.getElem?_eq_getElem (by omega)
    rw [readWithin_call, lookUp_apply, ht] at hw
    dsimp only at hw
    cases hf : Function.ofName? (s.tokens[s.pos].name?.getD "None") with
    | none =>
      rw [hf] at hw
      exact hw.2.2 rfl hlt _ _ rfl
    | some f =>
      rw [hf] at hw
      have hconduct (span : Span) (s : State) : Conduct s (behindName n f span s) :=
        conductSimulation.behindName f span (Rule.conduct n _) s
      exact Passes.skip_bind (hconduct _) s hlt hw

/-- A name goes on whether or not it is called. -/
private theorem passes_name (n : Nat) (name : String) (span : Span) (next : Token) :
    Passes (if next.lexeme = .lparen then Rule.call.readWithin n
      else do
        discard advance
        allocate (.name name span)) := by
  split
  · exact passes_call n
  · exact .skip_bind (Conduct.allocate _)

/-- Mirroring is a simulation. -/
def mirrorsSimulation (hg : Completes id g) : Simulation id g 0 where
  Rel := Mirrors g
  completes := hg
  bind := .bind
  pure := .pure
  exhausted _ q _ := .throw (by simp) q
  missing _ _ := .throw (by simp) _
  current := .current
  advance := .advance
  enter := .enter
  leave := .leave
  allocate e := by
    rw [Expr.relocate_id, funext Expr.relocate_id]
    exact .allocate e
  reject φ _ h := .reject φ h
  lookUp := .lookUp hg
  afterName name span hcall := by
    refine .peek_bind (fun next => hg.ite (by simp) (by simp) next hcall ?_)
      (passes_name _ name span)
    refine Mirrors.bind (Mirrors.advance.bind fun _ => .pure id ()) fun _ => ?_
    rw [funext Expr.relocate_id]
    exact .allocate (.name name span)

/-- Reading a sum up to the end of the input is mirrored by reading it. -/
theorem mirrors_sum (hg : Completes id g) (n : Nat) :
    Mirrors g id (Rule.sum.readWithin n >>= afterSum) (Rule.sum.readWithin n >>= afterSum) := by
  have h : Mirrors g (Expr.relocate id) _ _ := (mirrorsSimulation hg).sum n
  rwa [funext Expr.relocate_id] at h

end Rules

/-- A state with room for a nesting and for nodes. -/
def State.roomy (s : State) (nesting : Nat) : State :=
  { s with limit := max s.limit nesting, arena := { s.arena with released := false } }

section Sequences

variable {g : Token → Token} {k : Nat} {s s₂ : State} {ts us a r r' : List Token}

/-- Sequences that start alike are loaded alike. -/
theorem Follows.loaded (hk : a.length = k + 1) (hr : r' = [] ↔ r = []) (s : State) (nesting : Nat) :
    Follows g k (s.loaded (a ++ r)) ((s.roomy nesting).loaded (a.map g ++ r')) where
  pos_eq := rfl
  depth_eq := rfl
  limit_le := Int.le_max_left _ _
  size_eq := rfl
  unreleased _ := rfl
  tokens_eq j hj := by
    simp only [State.loaded, List.getElem?_toArray]
    rw [List.getElem?_append_left (by simp; omega), List.getElem?_append_left (by omega),
      List.getElem?_map]
  lt_size := by
    simp only [State.loaded, List.size_toArray, List.length_append]
    omega
  last_iff := by
    have hlength := List.length_pos_iff (l := r)
    have hlength' := List.length_pos_iff (l := r')
    simp only [State.loaded, List.size_toArray, List.length_append, List.length_map]
    by_cases h : r = []
    · simp [h, hr.mpr h, hk]
    · have := hlength.mpr h
      have := hlength'.mpr (mt hr.mp h)
      omega

/-- Parsing does not need more steps than it is given. -/
private theorem parse_ne_outOfFuel (hts : isTerminated ts = true) (s s' : State) :
    parse ts s ≠ .error .outOfFuel s' := by
  intro h
  have ho := orderly_parse hts s
  rw [h] at ho
  cases ho.reason

/-- More steps than it is given do not matter for parsing. -/
theorem parse_eq_of_le (hts : isTerminated ts = true) (s : State) {n : Nat}
    (hn : (s.loaded ts).fuel ≤ n) :
    parse ts s = (Rule.sum.readWithin n >>= afterSum) (s.loaded ts) := by
  have hne := parse_ne_outOfFuel hts s
  rw [parse_eq_readWithin hts] at hne ⊢
  exact ((extends_sum_of_le hn).eq hne).symm

/-- Parsing a sequence is mirrored by parsing another one, as far as they agree. -/
theorem matched_parse (hg : Completes id g) (hts : isTerminated ts = true)
    (hus : isTerminated us = true) (h : Follows g k (s.loaded ts) (s₂.loaded us))
    (hw : Within k (parse ts s)) : Matched g id k (parse ts s) (parse us s₂) := by
  have hn := Nat.le_max_left (s.loaded ts).fuel (s₂.loaded us).fuel
  have hn₂ := Nat.le_max_right (s.loaded ts).fuel (s₂.loaded us).fuel
  rw [parse_eq_of_le hts s hn] at hw ⊢
  rw [parse_eq_of_le hus s₂ hn₂]
  exact (mirrors_sum hg _).matched k _ _ h hw

/-- A terminated sequence is never passed. -/
theorem pos_parse_lt (hts : isTerminated ts = true) (s : State) :
    (finalState (parse ts s)).pos < ts.length := by
  have hready : (finalState (parse ts s)).Ready := by
    have ho := orderly_parse hts s
    cases hx : parse ts s with
    | ok t s' =>
      rw [hx] at ho
      exact ho.ready
    | error stop s' =>
      rw [hx] at ho
      exact ho.ready
  have hpos := List.length_pos_iff.mpr (isTerminated_ne_nil hready)
  rw [State.length_rest, (conduct_parse hts s).tokens_eq] at hpos
  simp only [State.loaded, List.size_toArray] at hpos
  omega

/-- A terminated sequence is parsed in the same way with all filled in that its tokens lack, in a
state with room, unless it nests too deep or a stop is no fault. -/
theorem matched_parse_completed {e : Token} (he : e.lexeme = .eof) (s : State) (nesting : Nat)
    (hw : Within ts.length (parse (ts ++ [e]) s)) :
    Matched Token.completed id ts.length (parse (ts ++ [e]) s)
      (parse (ts.map Token.completed ++ [e]) (s.roomy nesting)) := by
  have hlength : (ts ++ [e]).length = ts.length + 1 := by simp
  have hfollows := Follows.loaded (g := Token.completed) hlength (Iff.refl ([] = [])) s nesting
  rw [List.append_nil, List.append_nil, map_completed_append he] at hfollows
  exact matched_parse completes_completed (isTerminated_append_singleton ts he)
    (isTerminated_append_singleton _ he) hfollows hw

/-- Whatever is parsed is parsed just so when all is filled in that its tokens lack. -/
theorem parse_completed {e : Token} (he : e.lexeme = .eof) {s' : State} {t : Expr}
    (h : parse (ts ++ [e]) s = .ok t s') (nesting : Nat) :
    ∃ s₂, parse (ts.map Token.completed ++ [e]) (s.roomy nesting) = .ok t s₂ := by
  have hpos := pos_parse_lt (isTerminated_append_singleton ts he) s
  rw [h] at hpos
  have hwithin : Within ts.length (parse (ts ++ [e]) s) := by
    rw [h]
    exact Nat.le_of_lt_succ (by simpa [finalState] using hpos)
  have hm := matched_parse_completed he s nesting hwithin
  rw [h] at hm
  cases hp : parse (ts.map Token.completed ++ [e]) (s.roomy nesting) with
  | ok t₂ s₂ =>
    rw [hp] at hm
    exact ⟨s₂, congrArg (EStateM.Result.ok · s₂) hm.1⟩
  | error stop s₂ =>
    rw [hp] at hm
    exact hm.elim

end Sequences

end Reckoner.Parser
