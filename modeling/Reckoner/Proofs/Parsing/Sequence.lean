import Reckoner.Proofs.Parsing.Ends

/-!
# Parsing a whole sequence

A sequence of tokens is loaded, read as a sum, and has to be used up by it. Parsing ends orderly
like every other reading: a sequence whose numbers have values is parsed to an expression or is at
fault at one of its tokens, and nothing else stops the parser.
-/

namespace Reckoner.Parser

/-- The state in which the tokens of a sequence are read. -/
def State.loaded (s : State) (tokens : List Token) : State :=
  { s with tokens := tokens.toArray, pos := 0, depth := 0 }

@[simp] theorem State.rest_loaded (s : State) (ts : List Token) : (s.loaded ts).rest = ts := by
  simp [State.rest, State.loaded]

/-- What is left to do after the sum that a sequence starts with. -/
def afterSum (e : Expr) : Parser Expr := do
  let t ← current
  if t.lexeme ≠ .eof then reject .trailingInput
  pure e

/-- A terminated sequence is loaded and then read as a sum that the end of the input follows. -/
theorem parse_eq {ts : List Token} (h : isTerminated ts = true) (s : State) :
    parse ts s = (Rule.sum.read >>= afterSum) (s.loaded ts) := by
  simp only [parse, h, Bool.not_true, Bool.false_eq_true, ite_false]
  rfl

/-- The sum is read in as many steps as the bound allows that reading sets itself. -/
theorem parse_eq_readWithin {ts : List Token} (h : isTerminated ts = true) (s : State) :
    parse ts s = (Rule.sum.readWithin (s.loaded ts).fuel >>= afterSum) (s.loaded ts) := by
  rw [parse_eq h, bind_apply, bind_apply, Rule.read]

/-- Only a terminated sequence is parsed. -/
theorem parse_unterminated {ts : List Token} (h : isTerminated ts = false) (s : State) :
    parse ts s = .error .unterminated s := by
  simp only [parse, h, Bool.not_false, ite_true]
  rfl

/-- A complete sum is the result if the end of the input follows, and else there is a fault. -/
theorem afterSum_eq {s : State} {t : Token} {r : List Token} (hr : s.rest = t :: r) (e : Expr) :
    afterSum e s = if t.lexeme = .eof then .ok e s
      else .error (.fault (t.fault .trailingInput)) s := by
  rw [afterSum, current_bind hr]
  by_cases ht : t.lexeme = .eof
  · simp only [ht, ne_eq, not_true_eq_false, ite_false, ite_true]
    rfl
  · simp only [ht, ne_eq, not_false_eq_true, ite_true, ite_false]
    exact bind_of_error (reject_eq hr _)

/-- The stage before the first token. -/
def Stage.start : Stage := ⟨[], 0, .awaiting⟩

/-- The stage behind a complete expression. -/
def Stage.complete : Stage := ⟨[], 0, .operand⟩

/-- A sum with nothing around it, and what is left to do after it, go from start to end. -/
theorem goes_sum (n : Nat) {s : State} (hs : s.Ready) :
    Goes (n < Rule.sum.need s.rest.length) .start s (Rule.sum.readWithin n >>= afterSum)
      fun _ => .complete := by
  refine .bind hs (Rule.sum.goes n hs (.inl rfl)) fun e s₁ h₁ _ => ?_
  obtain ⟨t, r, hr⟩ := h₁.exists_cons
  refine .current_bind hr (.ite (fun _ => .reject_bind h₁ (by simp) _) fun _ => ?_)
  exact .pure (fun _ => .complete) e

section Terminated

variable {ts : List Token} {s s' : State} {t : Expr}

/-- A terminated sequence is loaded with the cursor on its first token. -/
theorem ready_loaded (h : isTerminated ts = true) (s : State) : (s.loaded ts).Ready := by
  rwa [State.Ready, State.rest_loaded]

/-- Parsing a terminated sequence goes from start to end, in the steps that the bound allows. -/
theorem goes_parse (h : isTerminated ts = true) (s : State) :
    Goes False .start (s.loaded ts) (Rule.sum.readWithin (s.loaded ts).fuel >>= afterSum)
      fun _ => .complete :=
  (goes_sum _ (ready_loaded h s)).mono (Nat.not_lt.mpr (Rule.sum.need_le_fuel _))

/-- Parsing a terminated sequence goes a path. -/
theorem arrives_parse (h : isTerminated ts = true) (s : State) :
    Arrives False (.start, s.loaded ts) (fun _ => .complete) (parse ts s) := by
  rw [parse_eq_readWithin h]
  exact (goes_parse h s).arrives

/-- What every move keeps holds behind an expression that is parsed. -/
theorem keeps_of_parse {P : Stage × State → Prop} (hP : ∀ {a b}, Move a b → P a → P b)
    (h : isTerminated ts = true) (hstart : P (.start, s.loaded ts)) (hp : parse ts s = .ok t s') :
    P (.complete, s') := by
  have harrives := arrives_parse h s
  rw [hp] at harrives
  exact Moves.keeps hP harrives hstart

/-- What every move keeps holds where parsing halts. -/
theorem exists_halt_of_parse {P : Stage × State → Prop} (hP : ∀ {a b}, Move a b → P a → P b)
    (h : isTerminated ts = true) (hstart : P (.start, s.loaded ts)) {e : Stop}
    (hp : parse ts s = .error e s') : ∃ b, P b ∧ Halt False b e s' := by
  have harrives := arrives_parse h s
  rw [hp] at harrives
  obtain ⟨b, hmoves, hhalt⟩ := harrives
  exact ⟨b, hmoves.keeps hP hstart, hhalt⟩

/-- Parsing a terminated sequence ends orderly. -/
theorem orderly_parse (h : isTerminated ts = true) (s : State) :
    Orderly 1 (s.loaded ts) (parse ts s) := by
  have hgoes := goes_parse h s
  rw [← (s.loaded ts).nested_zero] at hgoes
  have horderly := Goes.orderly (ready_loaded h s) hgoes id rfl rfl
  rw [parse_eq_readWithin h]
  rwa [List.length_nil, State.nested_zero] at horderly

/-- What is parsed was read as a sum up to an end of the input. -/
theorem parse_eq_ok (h : isTerminated ts = true) (hp : parse ts s = .ok t s') :
    Rule.sum.read (s.loaded ts) = .ok t s' ∧ ∃ e r, s'.rest = e :: r ∧ e.lexeme = .eof := by
  rw [parse_eq h] at hp
  obtain ⟨t', s₁, hread, hp⟩ := bind_eq_ok hp
  have horderly := Rule.sum.orderly (ready_loaded h s) (.inl rfl) rfl
  rw [hread] at horderly
  obtain ⟨e, r, hr⟩ := horderly.ready.exists_cons
  rw [afterSum_eq hr] at hp
  split at hp
  · rename_i he
    cases hp
    exact ⟨hread, e, r, hr, he⟩
  · cases hp

/-- If the numbers of a sequence have values and nodes can be counted, then parsing gives an
expression or finds a token at fault. -/
theorem parse_ends (h : isTerminated ts = true) (hvalues : ∀ t ∈ ts, t.lexeme ≠ .number none)
    (hs : s.arena.released = false) :
    (∃ e s', parse ts s = .ok e s') ∨ ∃ f s', parse ts s = .error (.fault f) s' := by
  have ho := orderly_parse h s
  cases hp : parse ts s with
  | ok e s' => exact .inl ⟨e, s', rfl⟩
  | error stop s' =>
    rw [hp] at ho
    cases ho.reason with
    | fault _ cause => exact .inr ⟨_, s', rfl⟩
    | missingValue ht hnone =>
      rw [State.rest_loaded] at ht
      exact absurd hnone (hvalues _ ht)
    | released hr => exact absurd (hs.symm.trans hr) (by decide)

end Terminated

end Reckoner.Parser
