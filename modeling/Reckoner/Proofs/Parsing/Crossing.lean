import Reckoner.Proofs.Parsing.Changes

/-!
# Where a level is one too many

While a parser reads, the levels that it counts are those that its tokens open. So where it finds a
level too many, the tokens that it has passed have as many levels open as the limit allows, and
never had more, and one more token opens the next level. A sign is counted before it is passed, and
is the token that the fault is found at. The parenthesis of a group or of an argument list and the
sign of a power are passed before they are counted: there the fault is found at the token behind.

The invariant of the moves is that the tokens passed so far lead a reader to where the stage says:
the levels that it counts are open, and behind an operand signs and exponents besides.
-/

namespace Reckoner.Parser

open Standing

/-- Where a reader of the tokens may stand at a stage. -/
def Stage.At (c : Stage) (x : Standing) : Prop :=
  match c.phase with
  | .awaiting => x = ⟨c.opened, true⟩
  | .primary => x = ⟨c.opened, false⟩
  | .operand => ∃ inner, IsInner inner ∧ x = ⟨inner ++ c.opened, false⟩

section Stages

variable {c c' : Stage} {x : Standing} {l : Lexeme}

/-- All levels that are counted are open. -/
theorem Stage.At.length_le (h : c.At x) : c.opened.length ≤ x.depth := by
  obtain ⟨os, n, ph⟩ := c
  cases ph with
  | awaiting | primary =>
    obtain rfl : x = _ := h
    exact Nat.le_refl _
  | operand =>
    obtain ⟨inner, -, rfl⟩ := h
    simp [Standing.depth]

/-- Unless an operand was read last, no other levels are open. -/
theorem Stage.At.depth_eq (h : c.At x) (hphase : c.phase ≠ .operand) :
    x.depth = c.opened.length := by
  obtain ⟨os, n, ph⟩ := c
  cases ph with
  | awaiting | primary =>
    obtain rfl : x = _ := h
    rfl
  | operand => exact absurd rfl hphase

/-- Where a token was passed, no operand was read last. -/
theorem Stage.Passes.phase_ne (h : c.Passes l c') : c'.phase ≠ .operand := by
  cases h <;> simp

/-- A level is opened where no operand was read last. -/
theorem Stage.Passes.phase_ne_of_lt (h : c.Passes l c') (hlt : c.opened.length < c'.opened.length) :
    c.phase ≠ .operand := by
  cases h with
  | lparen hph => exact hph
  | operand | sign | power => simp
  | operator | comma => exact absurd hlt (Nat.lt_irrefl _)
  | rparen => exact absurd hlt (by simp)

/-- A reader is led from one stage to the next by the token that is passed. -/
theorem Stage.Passes.at_read (h : c.Passes l c') (hx : c.At x) : c'.At (x.read l) := by
  cases h with
  | operand h =>
    obtain rfl : x = _ := hx
    obtain ⟨v, rfl⟩ | ⟨n, rfl⟩ := h <;> rfl
  | @operator os n l c op hos h =>
    obtain ⟨inner, hinner, rfl⟩ := hx
    refine read_behind ?_ hinner hos
    cases c with
    | sum => rcases sumOperator?_eq_some_iff.mp h with ⟨h, -⟩ | ⟨h, -⟩ <;> simp [h]
    | product =>
      rcases productOperator?_eq_some_iff.mp h with ⟨h, -⟩ | ⟨h, -⟩ | ⟨h, -⟩ <;> simp [h]
  | comma h =>
    obtain ⟨inner, hinner, rfl⟩ := hx
    exact read_behind (by simp [h]) hinner (isOuter_bracket _)
  | sign h =>
    obtain rfl : x = _ := hx
    exact read_sign ((signOf?_eq_some_iff.mp h).imp And.left And.left)
  | power h =>
    obtain rfl : x = _ := hx
    exact congrArg (Standing.read _) h
  | @lparen os n l ph hph h =>
    cases ph with
    | awaiting | primary =>
      obtain rfl : x = _ := hx
      exact congrArg (Standing.read _) h
    | operand => exact absurd rfl hph
  | @rparen os n l ph hph h =>
    cases ph with
    | awaiting =>
      obtain rfl : x = _ := hx
      exact h ▸ read_rparen isInner_nil
    | primary => exact absurd rfl hph
    | operand =>
      obtain ⟨inner, hinner, rfl⟩ := hx
      exact h ▸ read_rparen hinner

end Stages

/-- The tokens passed since a state lead a reader to a stage, and never had more levels open than
the limit allows; the stage has as many levels open as are counted. -/
structure Stands (m : Nat) (start : State) (a : Stage × State) : Prop where
  /-- The tokens that were passed. -/
  passed : ∃ us, start.rest = us ++ a.2.rest ∧ a.1.At (Standing.start.reads us) ∧ nesting us ≤ m
  /-- The levels of the stage are counted. -/
  depth_eq : a.2.depth = a.1.opened.length
  /-- The limit. -/
  limit_eq : a.2.limit = m

section Paths

variable {m : Nat} {start : State} {a b : Stage × State}

/-- The tokens passed so far and one more, within the limit. -/
private theorem nesting_append_le {us : List Token} {t : Token} (hle : nesting us ≤ m)
    (h : ((Standing.start.reads us).read t.lexeme).depth ≤ m) : nesting (us ++ [t]) ≤ m := by
  rw [nesting, peak_append_cons]
  exact Nat.max_le.mpr ⟨hle, h⟩

theorem Move.stands (h : Move a b) (ha : Stands m start a) : Stands m start b := by
  obtain ⟨⟨us, hus, hat, hle⟩, hdepth, hlimit⟩ := ha
  cases h with
  | @pass c c' s t u r d hr hpasses hd hroom =>
    have hread := hpasses.at_read hat
    have hopen := hat.length_le
    have hpeak := depth_reads_le_peak Standing.start us
    have hnext : ((Standing.start.reads us).read t.lexeme).depth ≤ m := by
      rw [hread.depth_eq hpasses.phase_ne]
      by_cases hpos : 0 < d
      · have hlength := hpasses.length_le
        have hlt := hroom hpos
        simp only at hdepth hlimit
        omega
      · simp only at hopen
        rw [nesting] at hle
        omega
    refine ⟨⟨us ++ [t], ?_, ?_, nesting_append_le hle hnext⟩, ?_, hlimit⟩
    · have hrest : (s.passed d).rest = u :: r := by
        show (s.after 1 0).rest = u :: r
        simp [hr]
      simp only at hus
      rw [hus, hr, hrest, List.append_assoc, List.singleton_append]
    · rwa [reads_append]
    · show s.depth + d = c'.opened.length
      simp only at hdepth
      omega
  | count => exact ⟨⟨us, hus, hat, hle⟩, hdepth, hlimit⟩
  | @leave os n s inner h =>
    obtain ⟨more, hmore, hx⟩ := hat
    refine ⟨⟨us, hus, ⟨more ++ inner, hmore.append h, ?_⟩, hle⟩, ?_, hlimit⟩
    · rw [hx, List.append_assoc]
    · show s.depth - inner.length = os.length
      simp only [List.length_append] at hdepth
      omega
  | loosen => exact ⟨⟨us, hus, ⟨[], isInner_nil, hat⟩, hle⟩, hdepth, hlimit⟩

/-- A level too many is the first one beyond the limit, and one more token opens it. -/
theorem Halt.crosses {cut : Prop} {e : Stop} {s' : State} (h : Halt cut a e s')
    (ha : Stands m start a) (hdeep : e.IsTooDeep) :
    ∃ us o rest t, start.rest = us ++ o :: rest ∧ nesting us ≤ m ∧ levelsAfter us = m ∧
      levelsAfter (us ++ [o]) = m + 1 ∧ o.RefusedAt rest t ∧
      e = .fault (t.fault (.nestingTooDeep · m)) := by
  obtain ⟨⟨us, hus, hat, hle⟩, hdepth, hlimit⟩ := ha
  cases h with
  | wrong _ hcause =>
    obtain ⟨l, n, h⟩ := hdeep
    exact absurd h (hcause _ _ _)
  | @tooDeep c c' s o u t r v k hr hpasses hlength hd hrefused =>
    have hopen := hat.depth_eq (hpasses.phase_ne_of_lt (by omega))
    have hread := (hpasses.at_read hat).depth_eq hpasses.phase_ne
    have hpeak := depth_reads_le_peak Standing.start us
    simp only at hdepth hlimit hopen hus
    rw [nesting] at hle
    have hm : c.opened.length = m := by omega
    refine ⟨us, o, u :: r, t, by rw [hus, hr], hle, ?_, ?_, hrefused, by rw [hlimit]⟩
    · rw [levelsAfter, hopen, hm]
    · rw [levelsAfter, reads_append, reads_cons, reads_nil, hread, hlength, hm]
  | unclosed =>
    obtain ⟨l, n, h⟩ := hdeep
    cases h
  | missing | released | exhausted => exact hdeep.elim

end Paths

/-- A level too many is the first one beyond the limit: before the token that opens it as many
levels are open as the limit allows, and never were more, and no expression that starts with these
tokens nests within the limit. A sign is refused itself; in place of a parenthesis or the sign of a
power, the token behind it is. -/
theorem crossing_of_parse {ts : List Token} {m : Nat} {s s' : State} {f : Fault}
    (hm : s.limit = m) (h : parse ts s = .error (.fault f) s')
    (hdeep : ∃ l n, f.cause = .nestingTooDeep l n) :
    ∃ before o after t, ts = before ++ o :: after ∧
      nesting before = m ∧ levelsAfter before = m ∧ levelsAfter (before ++ [o]) = m + 1 ∧
      (∀ us x d, Derives .sum (before ++ o :: us) x d → m < d) ∧
      o.RefusedAt after t ∧ f = t.fault (.nestingTooDeep · m) := by
  cases hts : isTerminated ts with
  | false =>
    rw [parse_unterminated hts] at h
    cases h
  | true =>
    have hstart : Stands m (s.loaded ts) (.start, s.loaded ts) :=
      ⟨⟨[], rfl, rfl, Nat.zero_le m⟩, rfl, hm⟩
    obtain ⟨b, hstands, hhalt⟩ := exists_halt_of_parse Move.stands hts hstart h
    obtain ⟨before, o, after, t, hsplit, hpeak, hopen, hlevels, hat, hf⟩ :=
      hhalt.crosses hstands hdeep
    rw [State.rest_loaded] at hsplit
    refine ⟨before, o, after, t, hsplit, ?_, hopen, hlevels, fun us x d hd => ?_, hat, ?_⟩
    · exact Nat.le_antisymm hpeak (hopen ▸ depth_reads_le_peak .start before)
    · -- The level that the token opens is among those of the whole expression.
      have hle := depth_reads_le_peak .start (before ++ [o])
      have hparts := peak_append .start (before ++ [o]) us
      rw [List.append_assoc, List.singleton_append] at hparts
      have hpeak : Standing.start.peak (before ++ o :: us) = d := nesting_of_derives hd
      rw [levelsAfter] at hlevels
      omega
    · simpa using hf

/-- The tokens of `x^-(y)`. -/
private def negatedGroup : List Token :=
  [⟨.identifier (some "x"), ⟨0, 1⟩⟩, ⟨.power, ⟨1, 2⟩⟩, ⟨.minus, ⟨2, 3⟩⟩, ⟨.lparen, ⟨3, 4⟩⟩,
    ⟨.identifier (some "y"), ⟨4, 5⟩⟩, ⟨.rparen, ⟨5, 6⟩⟩, ⟨.eof, ⟨6, 6⟩⟩]

/-- In `x^-(y)` the exponent and the sign are the two levels that are allowed, and the name behind
the parenthesis that opens the third one is refused. -/
theorem crossing_negatedGroup :
    (∃ s', parse negatedGroup (.initial .empty 2) =
      .error (.fault ⟨.nestingTooDeep (.identifier (some "y")) 2, ⟨4, 5⟩⟩) s') ∧
    ∃ before o after t, negatedGroup = before ++ o :: after ∧
      nesting before = 2 ∧ levelsAfter before = 2 ∧ levelsAfter (before ++ [o]) = 3 ∧
      (∀ us x d, Derives .sum (before ++ o :: us) x d → 2 < d) ∧
      o.RefusedAt after t ∧
      ⟨.nestingTooDeep (.identifier (some "y")) 2, ⟨4, 5⟩⟩ = t.fault (.nestingTooDeep · 2) := by
  have h : parse negatedGroup (.initial .empty 2) =
      .error (.fault ⟨.nestingTooDeep (.identifier (some "y")) 2, ⟨4, 5⟩⟩) _ := rfl
  exact ⟨⟨_, h⟩, crossing_of_parse rfl h ⟨_, _, rfl⟩⟩

/-- Not every level too many is found at the token that opens it: that of `(1)` under a limit of
zero is found at the number. -/
theorem exists_crossing_behind :
    ¬ ∀ (ts : List Token) (m : Nat) (s s' : State) (f : Fault),
      isTerminated ts = true → s.limit = m → parse ts s = .error (.fault f) s' →
      (∃ l n, f.cause = .nestingTooDeep l n) →
        ∃ before o after, ts = before ++ o :: after ∧ nesting before = m ∧
          levelsAfter (before ++ [o]) = m + 1 ∧ f.span = o.span ∧
          f.cause.found? = some o.lexeme := by
  intro h
  have hp : parse [⟨.lparen, ⟨0, 1⟩⟩, ⟨.number (some (.integer ⟨1, rfl⟩)), ⟨1, 2⟩⟩,
      ⟨.rparen, ⟨2, 3⟩⟩, ⟨.eof, ⟨3, 3⟩⟩] (.initial .empty 0) =
        .error (.fault ⟨.nestingTooDeep (.number (some (.integer ⟨1, rfl⟩))) 0, ⟨1, 2⟩⟩) _ := rfl
  obtain ⟨before, o, after, hsplit, hnesting, -, -, hfound⟩ :=
    h _ 0 _ _ _ rfl rfl hp ⟨_, _, rfl⟩
  cases before with
  | nil =>
    obtain ⟨rfl, -⟩ := List.cons.inj hsplit
    cases hfound
  | cons u before =>
    obtain ⟨rfl, -⟩ := List.cons.inj hsplit
    have hle := depth_le_peak ⟨[.bracket], true⟩ before
    have hpeak : max 0 ((⟨[.bracket], true⟩ : Standing).peak before) = 0 := hnesting
    have hone : (⟨[.bracket], true⟩ : Standing).depth = 1 := rfl
    omega

end Reckoner.Parser
