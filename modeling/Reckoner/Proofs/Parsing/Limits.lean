import Reckoner.Proofs.Parsing.Acceptance
import Reckoner.Proofs.Parsing.Room

/-!
# The nesting limit only rejects

A sequence that does not nest too deep under a limit is parsed in the same way under every greater
one: to the same expression or with the same fault at the same token, and with as many nodes. Under
a limit of one level for each token before the first end of the input nothing nests too deep. Plain
operands with operators between them that group to the left do not nest at all, however many there
are.
-/

namespace Reckoner

/-- An operand that is a single token: a number with its value, or a name. -/
def Token.IsPlain (t : Token) : Prop :=
  (∃ v, t.lexeme = .number (some v)) ∨ ∃ n, t.lexeme = .identifier n

namespace Parser

/-- The state under another limit. -/
def State.limited (s : State) (limit : Int) : State := { s with limit := limit }

/-- Plain operands with operators between them that group to the left. -/
inductive IsFlat : List Token → Prop where
  /-- A plain operand. -/
  | operand {t : Token} (ht : t.IsPlain) : IsFlat [t]
  /-- One more operator and operand. -/
  | operator {ts : List Token} {o t : Token} {c : Chain} {op : BinaryOp} (h : IsFlat ts)
      (ho : c.operator? o.lexeme = some op) (ht : t.IsPlain) : IsFlat (ts ++ [o, t])

/-! ### Lockstep -/

/-- A greater limit is a change of the state. -/
private theorem change_eq_limited {m m' : Int} (h : m ≤ m') {s : State} (hs : s.limit = m) :
    s.change ⟨id, (m' - m).toNat, 0⟩ = s.limited m' := by
  have hlimit : s.limit + ((m' - m).toNat : Int) = m' := by omega
  simp only [State.change, State.limited, hlimit, Token.relocate_id, Array.map_id, Nat.add_zero]

/-- Parsing does not touch the limit. -/
theorem limit_parse (ts : List Token) (s : State) : (finalState (parse ts s)).limit = s.limit := by
  cases hts : isTerminated ts with
  | false =>
    rw [parse_unterminated hts]
    rfl
  | true =>
    have ho := orderly_parse hts s
    cases hx : parse ts s with
    | ok t s' =>
      rw [hx] at ho
      obtain ⟨k, n, -, rfl⟩ := ho.reached
      rfl
    | error e s' =>
      rw [hx] at ho
      obtain ⟨k, n, d, rfl⟩ := ho.reached
      rfl

/-- A sequence that is not found to nest too deep stops for no reason that a greater limit
removes. -/
private theorem keeps_parse {ts : List Token} {s : State}
    (h : ∀ e s', parse ts s = .error e s' → ¬ e.IsTooDeep) (c : Change) :
    c.Keeps (parse ts s) := by
  refine .inr fun e s' he => ?_
  rintro (hdeep | ⟨loaded, rfl⟩)
  · exact h e s' he hdeep
  · cases hts : isTerminated ts with
    | false =>
      rw [parse_unterminated hts] at he
      cases he
    | true =>
      have ho := orderly_parse hts s
      rw [he] at ho
      cases ho.reason

/-- A greater limit leads to the same end, unless that was because of a level too many. -/
private theorem parse_limited_of_le {ts : List Token} {s : State} {m m' : Int} (hm : m ≤ m')
    (h : ∀ e s', parse ts (s.limited m) = .error e s' → ¬ e.IsTooDeep) :
    parse ts (s.limited m') = mapState (·.limited m') (parse ts (s.limited m)) := by
  have hchange := parse_change (keeps_parse h ⟨id, (m' - m).toNat, 0⟩)
  rw [change_eq_limited hm rfl] at hchange
  exact hchange.trans (mapState_congr (change_eq_limited hm (limit_parse ts _)))

/-! ### Flat sequences -/

/-- A plain operand is accepted as a signed operand without nesting. -/
private theorem accepts_plain {t : Token} (ht : t.IsPlain) : ∃ x, Accepts .signed [t] x 0 := by
  have hhead : Derives.starts .power t.lexeme := by
    rcases ht with ⟨v, hv⟩ | ⟨n, hn⟩ <;> simp [Derives.starts, Derives.startsPrimary, *]
  obtain ⟨x, hx⟩ : ∃ x, Accepts .primary [t] x 0 := by
    rcases ht with ⟨v, hv⟩ | ⟨n, hn⟩
    · exact ⟨_, accepts_number hv⟩
    · exact ⟨_, accepts_name hn⟩
  exact ⟨x, accepts_signed_of_power ⟨t, [], rfl, hhead⟩ (accepts_power_of_primary hx)⟩

/-- Tokens that make a sum of every product behind them. -/
private def OpensSum (ts : List Token) : Prop :=
  ∀ us t, Accepts .product us t 0 → ∃ x, Accepts .sum (ts ++ us) x 0

/-- A flat sequence ends with a product, and what is before that makes a sum of every product. The
product grows with every operator of a product, and begins anew at every operator of a sum. -/
private theorem exists_product_of_isFlat {ts : List Token} (h : IsFlat ts) :
    ∃ before us t, ts = before ++ us ∧ OpensSum before ∧ Accepts .product us t 0 := by
  induction h with
  | @operand t ht =>
    obtain ⟨x, hx⟩ := accepts_plain ht
    exact ⟨[], [t], x, rfl, fun us t h => ⟨t, accepts_sum_of_product h⟩,
      accepts_product_of_signed hx⟩
  | @operator ts o t c op _ ho ht ih =>
    obtain ⟨before, us, l, rfl, hbefore, hl⟩ := ih
    obtain ⟨x, hx⟩ := accepts_plain ht
    cases c with
    | sum =>
      obtain ⟨y, hy⟩ := hbefore us l hl
      refine ⟨before ++ us ++ [o], [t], x, by simp, fun vs r hr => ?_,
        accepts_product_of_signed hx⟩
      have hsum := accepts_addSub (sumOperator?_eq_some_iff.mp ho) hy hr
      exact ⟨_, by simpa using hsum⟩
    | product =>
      have hproduct := accepts_mulDiv (productOperator?_eq_some_iff.mp ho) hl hx
      exact ⟨before, us ++ [o, t], _, by simp, hbefore, hproduct⟩

/-- A flat sequence is parsed without any level. -/
private theorem parse_of_isFlat {ts : List Token} {e : Token} (h : IsFlat ts)
    (he : e.lexeme = .eof) {s : State} (hs : s.arena.released = false) (hlimit : 0 ≤ s.limit) :
    ∃ t s', parse (ts ++ [e]) s = .ok t s' := by
  obtain ⟨before, us, t, rfl, hbefore, ht⟩ := exists_product_of_isFlat h
  obtain ⟨x, hx⟩ := hbefore us t ht
  exact ⟨x, _, parse_of_accepts he hs hx hlimit⟩

/-- Under a greater limit a sequence is parsed in the same way, unless it nested too deep; under a
limit of one level for each token before the first end of the input it does not nest too deep; and
a flat sequence is parsed under a limit of none. -/
theorem parse_limited (ts : List Token) (s : State) :
    (∀ m m' : Int, m ≤ m' →
      (∀ e s', parse ts (s.limited m) = .error e s' → ¬ e.IsTooDeep) →
      parse ts (s.limited m') = mapState (·.limited m') (parse ts (s.limited m))) ∧
    (∀ m : Int, (ts.takeWhile fun t => t.lexeme ≠ .eof).length ≤ m →
      ∀ e s', parse ts (s.limited m) = .error e s' → ¬ e.IsTooDeep) ∧
    ∀ us e, IsFlat us → e.lexeme = .eof → s.arena.released = false →
      ∃ t s', parse (us ++ [e]) (s.limited 0) = .ok t s' := by
  refine ⟨fun m m' hm h => parse_limited_of_le hm h, fun m hm e s' he => ?_,
    fun us e hus he hs => parse_of_isFlat hus he hs (Int.le_refl 0)⟩
  cases hts : isTerminated ts with
  | false =>
    rw [parse_unterminated hts] at he
    cases he
    exact id
  | true => exact not_isTooDeep_of_parse hts hm he

/-- The tokens of `-(x`. -/
private def openGroup : List Token :=
  [⟨.minus, ⟨0, 1⟩⟩, ⟨.lparen, ⟨1, 2⟩⟩, ⟨.identifier (some "x"), ⟨2, 3⟩⟩, ⟨.eof, ⟨3, 3⟩⟩]

/-- The tokens of `x-y/z`. -/
private def difference : List Token :=
  [⟨.identifier (some "x"), ⟨0, 1⟩⟩, ⟨.minus, ⟨1, 2⟩⟩, ⟨.identifier (some "y"), ⟨2, 3⟩⟩,
    ⟨.divide, ⟨3, 4⟩⟩, ⟨.identifier (some "z"), ⟨4, 5⟩⟩]

/-- In `-(x` the parenthesis is missing under a limit of two and so under a limit of five, three
levels are enough for its three tokens, and `x-y/z` needs no level. -/
theorem parse_limited_openGroup :
    (∃ s', parse openGroup ((State.initial .empty 0).limited 2) =
        .error (.fault ⟨.expectedRParen .eof, ⟨3, 3⟩⟩) s' ∧
      parse openGroup ((State.initial .empty 0).limited 5) =
        .error (.fault ⟨.expectedRParen .eof, ⟨3, 3⟩⟩) (s'.limited 5)) ∧
    (∀ e s', parse openGroup ((State.initial .empty 0).limited 3) = .error e s' →
      ¬ e.IsTooDeep) ∧
    ∃ t s', parse (difference ++ [⟨.eof, ⟨5, 5⟩⟩]) ((State.initial .empty 0).limited 0) =
      .ok t s' := by
  have h : parse openGroup ((State.initial .empty 0).limited 2) =
      .error (.fault ⟨.expectedRParen .eof, ⟨3, 3⟩⟩) _ := rfl
  obtain ⟨hle, henough, hflat⟩ := parse_limited openGroup (State.initial .empty 0)
  refine ⟨⟨_, h, ?_⟩, henough 3 (by decide), hflat difference _ ?_ rfl rfl⟩
  · rw [hle 2 5 (by decide) (fun e s' he => ?_), h]
    · rfl
    · rw [h] at he
      cases he
      rintro ⟨l, n, hcause⟩
      cases hcause
  · have hx : IsFlat [⟨.identifier (some "x"), ⟨0, 1⟩⟩] := .operand (.inr ⟨_, rfl⟩)
    have hdifference := hx.operator (c := .sum) (o := ⟨.minus, ⟨1, 2⟩⟩)
      (t := ⟨.identifier (some "y"), ⟨2, 3⟩⟩) rfl (.inr ⟨_, rfl⟩)
    exact hdifference.operator (c := .product) (o := ⟨.divide, ⟨3, 4⟩⟩) rfl (.inr ⟨_, rfl⟩)

end Parser

end Reckoner
