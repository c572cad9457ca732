import Reckoner.Proofs.Parsing.Paths

/-!
# How a parser ends

A parser that starts with the cursor on a token of a terminated sequence ends orderly in one of two
ways. With a result the cursor has moved on, nodes were counted, and the depth is what it was.
Without one the cursor stands on the token that is to blame, unless a number without a value or a
released arena is the reason, and no level was closed that was open before. A path whose steps do
not run out ends so. The readings of groups and calls do so at any token, for they skip the tokens
that should lead to their paths without a look at them.
-/

namespace Reckoner.Parser

/-- A success leaves a state at least some tokens further on, with the same levels open. -/
structure Yields (least : Nat) (s s' : State) : Prop where
  /-- The cursor stands on a token again. -/
  ready : s'.Ready
  /-- The cursor moved on and nodes were counted; nothing else changed. -/
  reached : ∃ k n, least ≤ k ∧ s' = s.after k n

/-- Why a parser may stop in a state after it started from another. -/
inductive Reason (s s' : State) : Stop → Prop where
  /-- The token under the cursor is at fault. -/
  | fault {t : Token} {r : List Token} (h : s'.rest = t :: r) (cause : Lexeme → Cause) :
      Reason s s' (.fault (t.fault cause))
  /-- There was a number without a value. -/
  | missingValue {t : Token} (h : t ∈ s.rest) (ht : t.lexeme = .number none) :
      Reason s s' .missingValue
  /-- The arena was released. -/
  | released (h : s.arena.released = true) : Reason s s' .released

/-- A stop leaves a state no less far on and no less deep, for one of the reasons. -/
structure Halts (s : State) (e : Stop) (s' : State) : Prop where
  /-- The cursor stands on a token again. -/
  ready : s'.Ready
  /-- The cursor moved on, nodes were counted and levels were opened; nothing else changed. -/
  reached : ∃ k n d, s' = (s.after k n).nested d
  /-- The reason to stop. -/
  reason : Reason s s' e

/-- Every end of a parser is a success at least some tokens further on, or a stop for a reason. -/
def Orderly {α : Type} (least : Nat) (s : State) : EStateM.Result Stop State α → Prop
  | .ok _ s' => Yields least s s'
  | .error e s' => Halts s e s'

variable {α β : Type} {least : Nat} {s s₁ s' : State} {e : Stop} {t : Token} {r : List Token}

/-! ### Ends of paths -/

/-- Where a path has come to that started from a state with no levels open: the cursor moved on,
nodes were counted, and the levels of the stage are open. -/
def Reaches (s : State) (b : Stage × State) : Prop :=
  b.2.Ready ∧ ∃ k n, b.2 = (s.after k n).nested b.1.opened.length

variable {cut : Prop} {a b : Stage × State}

theorem Move.reaches (h : Move a b) (ha : Reaches s a) : Reaches s b := by
  refine ⟨h.ready ha.1, ?_⟩
  obtain ⟨-, k, n, hs⟩ := ha
  cases h with
  | @pass c c' _ t u r d hr hpasses hd =>
    simp only at hs
    subst hs
    refine ⟨k + 1, n, ?_⟩
    simp only [State.passed, State.nested, State.after, hd, Nat.add_zero]
    congr 1
    omega
  | count =>
    simp only at hs
    subst hs
    exact ⟨k, n + 1, by simp⟩
  | leave inner =>
    simp only at hs
    subst hs
    refine ⟨k, n, ?_⟩
    simp only [State.nested, List.length_append, Int.natCast_add]
    congr 1
    omega
  | loosen => exact ⟨k, n, hs⟩

/-- Where a path halts, and not because its steps ran out, the parser stops for a reason. -/
theorem Halt.halts (h : Halt cut b e s') (hcut : ¬ cut) (hb : Reaches s b) : Halts s e s' := by
  obtain ⟨hready, k, n, hs⟩ := hb
  cases h with
  | wrong hr =>
    simp only at hs
    exact ⟨hready, ⟨k, n, _, hs⟩, .fault hr _⟩
  | @unclosed os _ _ _ t r hr =>
    simp only at hs
    subst hs
    have hclosed : { (s.after k n).nested (Opening.bracket :: os).length with
        depth := ((s.after k n).nested (Opening.bracket :: os).length).depth - (1 : Nat) } =
          (s.after k n).nested os.length := by
      simp only [State.nested, List.length_cons, Int.natCast_add]
      congr 1
      omega
    rw [hclosed]
    have hr : ((s.after k n).nested os.length).rest = t :: r := hr
    exact ⟨hready, ⟨k, n, _, rfl⟩, .fault hr _⟩
  | @tooDeep c c' _ o u t r v j hr hpasses _ _ _ hj ht =>
    simp only at hs
    subst hs
    have ht : ((((s.after k n).nested c.opened.length).after j 0).nested 1).rest = t :: v := ht
    refine ⟨?_, ⟨k + j, n, c.opened.length + 1, by simp⟩, .fault ht _⟩
    obtain rfl | rfl := Nat.le_one_iff_eq_zero_or_eq_one.mp hj
    · exact hready
    · exact (hready.after_one hr hpasses.ne_eof).2 0
  | @missing c _ t u r hr ht =>
    simp only at hs
    subst hs
    have hmem : t ∈ s.rest := by
      rw [State.rest_nested, State.rest_after] at hr
      exact List.mem_of_mem_drop (hr ▸ List.mem_cons_self)
    exact ⟨(hready.after_one hr (by simp [ht])).2 0, ⟨k + 1, n, c.opened.length, by simp⟩,
      .missingValue hmem ht⟩
  | released h =>
    simp only at hs
    subst hs
    exact ⟨hready, ⟨k, n, _, rfl⟩, .released h⟩
  | exhausted h => exact absurd h hcut

/-- A parser ends orderly that goes a path from where an operand is awaited to where one was read,
with all levels closed, if its steps do not run out. -/
theorem Goes.orderly {p : Parser α} {os : List Opening} {n : Nat} {c : Stage} (hs : s.Ready)
    (h : Goes cut ⟨os, n, .awaiting⟩ (s.nested os.length) p fun _ => c) (hcut : ¬ cut)
    (hopened : c.opened = []) (hleast : c.phase.least = 1) :
    Orderly 1 s (p (s.nested os.length)) := by
  have hstart : Reaches s (⟨os, n, .awaiting⟩, s.nested os.length) := ⟨hs.nested _, 0, 0, rfl⟩
  have harrives := h.arrives
  cases hx : p (s.nested os.length) with
  | ok x s' =>
    rw [hx] at harrives
    obtain ⟨hready, k, n, hs'⟩ := Moves.keeps Move.reaches harrives hstart
    simp only [hopened, List.length_nil, State.nested_zero] at hs'
    subst hs'
    have hle : (s.after k n).rest.length + c.phase.least ≤ s.rest.length :=
      Moves.remaining_le harrives
    have hpos := List.length_pos_iff.mpr (isTerminated_ne_nil hready)
    rw [hleast] at hle
    simp only [State.rest_after, List.length_drop] at hle hpos
    exact ⟨hready, k, n, by omega, rfl⟩
  | error e s' =>
    rw [hx] at harrives
    obtain ⟨b, hmoves, hhalt⟩ := harrives
    exact hhalt.halts hcut (Moves.keeps Move.reaches hmoves hstart)

/-! ### Ends in a row -/

/-- A stop after a success is a stop. -/
theorem Yields.halts (h : Yields least s s₁) (h' : Halts s₁ e s') : Halts s e s' := by
  obtain ⟨_, k, n, _, rfl⟩ := h
  obtain ⟨hr, ⟨k', n', d, rfl⟩, hreason⟩ := h'
  refine ⟨hr, ⟨k + k', n + n', d, by simp⟩, ?_⟩
  cases hreason with
  | fault hc cause => exact .fault hc cause
  | missingValue hm ht =>
    rw [State.rest_after] at hm
    exact .missingValue (List.mem_of_mem_drop hm) ht
  | released hrel => exact .released hrel

namespace Orderly

/-- Two parsers in a row end orderly. -/
theorem bind {p : Parser α} {f : α → Parser β} (hp : Orderly 0 s (p s))
    (hf : ∀ x s', Yields 0 s s' → Orderly least s' (f x s')) : Orderly least s ((p >>= f) s) := by
  rw [bind_apply]
  cases hx : p s with
  | ok x s₁ =>
    rw [hx] at hp
    have hy : Yields 0 s s₁ := hp
    have hends := hf x s₁ hy
    show Orderly least s (f x s₁)
    cases hz : f x s₁ with
    | ok y s₂ =>
      rw [hz] at hends
      obtain ⟨-, k, n, -, rfl⟩ := hy
      obtain ⟨hready, k', n', hk', rfl⟩ := hends
      exact ⟨hready, k + k', n + n', by omega, by simp⟩
    | error e s₂ =>
      rw [hz] at hends
      exact hy.halts hends
  | error e s₁ =>
    rw [hx] at hp
    exact hp

/-- A fault at the cursor is orderly. -/
theorem fault (hs : s.Ready) (hr : s.rest = t :: r) (cause : Lexeme → Cause) :
    Orderly least s (.error (.fault (t.fault cause)) s : EStateM.Result Stop State α) :=
  ⟨hs, ⟨0, 0, 0, by simp⟩, .fault hr cause⟩

/-- Passing over a token is orderly: the cursor moves on from it or stays at the last one. -/
theorem skip (hs : s.Ready) : Orderly 0 s (discard advance s) := by
  obtain ⟨t, r, hr⟩ := hs.exists_cons
  rcases hs.cases hr with ⟨rfl, -⟩ | ⟨⟨u, v, rfl⟩, hm⟩
  · rw [skip_last hr]
    exact ⟨hs, 0, 0, Nat.le_refl _, rfl⟩
  · rw [skip_eq hr]
    exact ⟨hm 0, 1, 0, Nat.zero_le _, rfl⟩

/-- Opening a level is orderly if what follows inside it is. -/
theorem enter (hs : s.Ready) {f : Unit → Parser β} (hf : Orderly least s (f () (s.nested 1))) :
    Orderly least s ((Parser.enter >>= f) s) := by
  obtain ⟨t, r, hr⟩ := hs.exists_cons
  by_cases hd : s.depth < s.limit
  · rw [enter_bind hd]
    exact hf
  · rw [enter_bind_of_le hr (by omega)]
    exact ⟨hs, ⟨0, 0, 1, rfl⟩, .fault (show (s.nested 1).rest = t :: r from hr) _⟩

end Orderly

/-! ### Rules -/

/-- No more tokens remain after a success than before. -/
theorem Yields.length_rest_le (h : Yields least s s') : s'.rest.length ≤ s.rest.length := by
  obtain ⟨-, k, n, -, rfl⟩ := h
  simp

/-- A rule that may start with any token and needs nothing around it is read to an orderly end. -/
theorem Rule.orderly (r : Rule) (hs : s.Ready) (hsuits : r.Suits [] s)
    (hfirst : r.first [] 0 = ⟨[], 0, .awaiting⟩) : Orderly 1 s (r.read s) := by
  have hgoes := r.goes s.fuel (n := 0) hs hsuits
  have hcut : ¬ s.fuel < r.need s.rest.length := Nat.not_lt.mpr (r.need_le_fuel s)
  rw [hfirst] at hgoes
  rw [← s.nested_zero] at hgoes
  have horderly := Goes.orderly hs hgoes hcut (by cases r <;> rfl) (by cases r <;> rfl)
  rwa [List.length_nil, State.nested_zero] at horderly

/-- What is read behind a group's parenthesis, or whatever stands in its place, ends orderly. -/
theorem orderly_group (hs : s.Ready) : Orderly 1 s (Rule.group.read s) := by
  rw [Rule.read, State.fuel, readWithin_group]
  refine (Orderly.skip hs).bind fun _ s₁ h₁ => .enter h₁.ready ?_
  have hle := h₁.length_rest_le
  rw [s.length_rest] at hle
  have hgoes (m : Nat) : Goes _ ⟨[.bracket], 0, .awaiting⟩ (s₁.nested 1) (inGroup m) fun _ =>
      ⟨[], 0, .primary⟩ := goes_inGroup (fun r => r.goes m) (h₁.ready.nested 1)
  refine Goes.orderly h₁.ready (hgoes _) ?_ rfl rfl
  simp only [Rule.need, State.rest_nested]
  omega

/-- What is read behind the name of a function and the parenthesis behind it, or whatever stands in
their places, ends orderly. -/
theorem orderly_call (hs : s.Ready) : Orderly 1 s (Rule.call.read s) := by
  obtain ⟨t, r, hr⟩ := hs.exists_cons
  rw [Rule.read, State.fuel, readWithin_call, lookUp, current_bind hr]
  cases Function.ofName? (t.name?.getD "None") with
  | none =>
    simp only [reject_eq hr]
    exact .fault hs hr _
  | some f =>
    refine (Orderly.skip hs).bind fun _ s₁ h₁ => ?_
    refine (Orderly.skip h₁.ready).bind fun _ s₂ h₂ => .enter h₂.ready ?_
    have hle := h₂.length_rest_le.trans h₁.length_rest_le
    rw [s.length_rest] at hle
    have hgoes (m : Nat) : Goes _ ⟨[.bracket], 1, .awaiting⟩ (s₂.nested 1) (inCall m f t.span)
        fun _ => ⟨[], 0, .primary⟩ := goes_inCall (fun r => r.goes m) (h₂.ready.nested 1) f t.span
    refine Goes.orderly h₂.ready (hgoes _) ?_ rfl rfl
    simp only [Rule.need, State.rest_nested]
    omega

end Reckoner.Parser
