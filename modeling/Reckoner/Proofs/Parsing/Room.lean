import Reckoner.Proofs.Parsing.Changes

/-!
# Room for nesting

Every level is opened for a token that the cursor passes, and no parser passes the end of the input.
So no level is one too many if the limit leaves one for each token before the next end of the input.
That is kept by every move: a token that is passed is one token less, and opens at most one level.
-/

namespace Reckoner.Parser

/-- The number of tokens before the next end of the input. -/
def State.room (s : State) : Nat := (s.rest.takeWhile fun t => t.lexeme ≠ .eof).length

/-- The limit leaves a level for each token before the next end of the input. -/
def State.Ample (s : State) : Prop := s.depth + s.room ≤ s.limit

variable {a b : Stage × State} {s : State} {t : Token} {r : List Token}

/-- A token that does not end the input takes up room. -/
theorem State.room_eq (hr : s.rest = t :: r) (ht : t.lexeme ≠ .eof) :
    s.room = (s.after 1 0).room + 1 := by
  simp [State.room, hr, ht]

theorem Move.ample (h : Move a b) (ha : a.2.Ample) : b.2.Ample := by
  cases h with
  | @pass c c' s t u r d hr hpasses hd hroom =>
    have hlength := hpasses.length_le
    have hrest : (s.passed d).room = (s.after 1 0).room := rfl
    have hle : s.depth + s.room ≤ s.limit := ha
    rw [State.room_eq hr hpasses.ne_eof] at hle
    show s.depth + d + (s.passed d).room ≤ s.limit
    omega
  | count | loosen => exact ha
  | @leave os n s inner h =>
    have hle : s.depth + s.room ≤ s.limit := ha
    show s.depth - inner.length + s.room ≤ s.limit
    omega

/-- Where the limit leaves a level for the token at the cursor, it is not one too many. -/
theorem Halt.not_isTooDeep {cut : Prop} {e : Stop} {s' : State} (h : Halt cut a e s')
    (ha : a.2.Ample) : ¬ e.IsTooDeep := by
  cases h with
  | wrong _ hcause =>
    rintro ⟨l, n, h⟩
    exact hcause _ _ _ h
  | @tooDeep c c' s o u t r v k hr hpasses _ hd =>
    have hle : s.depth + s.room ≤ s.limit := ha
    rw [State.room_eq hr hpasses.ne_eof] at hle
    omega
  | unclosed =>
    rintro ⟨l, n, h⟩
    cases h
  | missing | released | exhausted => exact id

/-- A sequence with no more tokens before its first end of the input than the limit has levels does
not nest too deep. -/
theorem not_isTooDeep_of_parse {ts : List Token} (hts : isTerminated ts = true)
    (hlimit : (ts.takeWhile fun t => t.lexeme ≠ .eof).length ≤ s.limit) {e : Stop} {s' : State}
    (h : parse ts s = .error e s') : ¬ e.IsTooDeep := by
  have hstart : (s.loaded ts).Ample := by
    rw [State.Ample, State.room, State.rest_loaded]
    simpa [State.loaded] using hlimit
  obtain ⟨b, hample, hhalt⟩ :=
    exists_halt_of_parse (P := fun a => a.2.Ample) Move.ample hts hstart h
  exact hhalt.not_isTooDeep hample

end Reckoner.Parser
