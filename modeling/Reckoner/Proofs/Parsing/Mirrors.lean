import Reckoner.Proofs.Parsing.Causes

/-!
# What a parser depends on

A parser looks at no token behind the one where it ends, but for the one after a name that might be
called; a greater limit changes nothing unless a level is opened beyond it; and what a token lacks
matters only where a node is made of it. So a run is mirrored by a run on any tokens that go on in
another way behind its end, under any greater limit, with what is lacking filled in. That is a
simulation, but for the look at the token behind a name: there the parser has to pass the name.
-/

namespace Reckoner

/-- A token with what its kind calls for: a value that it lacks is zero, and a name that it lacks is
the one that is shown for it. -/
def Token.completed (t : Token) : Token :=
  match t.lexeme with
  | .number none => ⟨.number (some (.integer ⟨0, rfl⟩)), t.span⟩
  | .identifier none => ⟨.identifier (some "None"), t.span⟩
  | _ => t

/-- A token in which all is filled in is complete, unless it ends the input. -/
theorem Token.isComplete_completed {t : Token} (h : t.lexeme ≠ .eof) : t.completed.IsComplete := by
  unfold Token.completed
  split
  · exact ⟨by simp, by simp, by simp⟩
  · exact ⟨by simp, by simp, by simp⟩
  · exact ⟨h, by assumption, by assumption⟩

/-- A name in which all is filled in has its text. -/
theorem Token.lexeme_completed_ne (t : Token) : t.completed.lexeme ≠ .identifier none := by
  unfold Token.completed
  split
  · simp
  · simp
  · assumption

/-- A complete token lacks nothing. -/
theorem Token.IsComplete.completed_eq {t : Token} (h : t.IsComplete) : t.completed = t := by
  unfold Token.completed
  split
  · exact absurd ‹_› h.2.1
  · exact absurd ‹_› h.2.2
  · rfl

/-- Tokens in which all is filled in are complete, if none ends the input. -/
theorem Token.isComplete_of_mem_map {ts : List Token} (hts : ∀ t ∈ ts, t.lexeme ≠ .eof) :
    ∀ u ∈ ts.map Token.completed, u.IsComplete := by
  intro u hu
  obtain ⟨t, ht, rfl⟩ := List.mem_map.mp hu
  exact isComplete_completed (hts t ht)

/-- The end of the input lacks nothing. -/
theorem map_completed_append {e : Token} (he : e.lexeme = .eof) (ts : List Token) :
    (ts ++ [e]).map Token.completed = ts.map Token.completed ++ [e] := by
  simp [Token.completed, he]

/-- A syntax fault as it is at another token. -/
def Fault.movedTo (f : Fault) (t : Token) : Fault :=
  match f.cause with
  | .expectedPrimary _ wanted => t.fault (.expectedPrimary · wanted)
  | .expectedRParen _ => t.fault .expectedRParen
  | .trailingInput _ => t.fault .trailingInput
  | .nestingTooDeep _ limit => t.fault (.nestingTooDeep · limit)
  | _ => f

namespace Parser

/-- All that is lacking is filled in. -/
theorem completes_completed : Completes id Token.completed := by
  constructor
  · intro t
    unfold Token.completed
    split <;> rfl
  · intro t
    unfold Token.completed
    split
    · rename_i h
      exact .inr (.inl ⟨h, _, rfl⟩)
    · rename_i h
      exact .inr (.inr ⟨h, rfl⟩)
    · exact .inl rfl

/-- A general cause is the same at any other token. -/
theorem GeneralCause.movedTo {cause : Lexeme → Cause} (h : GeneralCause cause) (t u : Token) :
    (t.fault cause).movedTo u = u.fault cause := by
  cases h <;> rfl

/-- A state that agrees with another one up to a token, under a limit that is no smaller. -/
structure Follows (g : Token → Token) (k : Nat) (s s₂ : State) : Prop where
  /-- The cursors stand at one place. -/
  pos_eq : s₂.pos = s.pos
  /-- The same number of levels is open. -/
  depth_eq : s₂.depth = s.depth
  /-- The limit is no smaller. -/
  limit_le : s.limit ≤ s₂.limit
  /-- The same number of nodes was counted. -/
  size_eq : s₂.arena.size = s.arena.size
  /-- Nodes can be counted if they can be counted there. -/
  unreleased : s.arena.released = false → s₂.arena.released = false
  /-- The tokens agree up to the one. -/
  tokens_eq : ∀ j ≤ k, s₂.tokens[j]? = (s.tokens[j]?).map g
  /-- There is the one. -/
  lt_size : k < s.tokens.size
  /-- It is the last one for both or for none. -/
  last_iff : k + 1 < s₂.tokens.size ↔ k + 1 < s.tokens.size

namespace Follows

variable {g : Token → Token} {k : Nat} {s s₂ : State}

/-- There is the one for both. -/
theorem lt_size₂ (h : Follows g k s s₂) : k < s₂.tokens.size := by
  have hk := h.tokens_eq k (Nat.le_refl k)
  rw [Array.getElem?_eq_getElem h.lt_size] at hk
  exact (Array.getElem?_eq_some_iff.mp hk).1

/-- The tokens under the cursors correspond. -/
theorem getElem?_pos (h : Follows g k s s₂) (hle : s.pos ≤ k) :
    s₂.tokens[s₂.pos]? = s.tokens[s.pos]?.map g := by
  rw [h.pos_eq, h.tokens_eq _ hle]

/-- The cursors move on together. -/
theorem moved (h : Follows g k s s₂) :
    Follows g k { s with pos := s.pos + 1 } { s₂ with pos := s₂.pos + 1 } :=
  { h with pos_eq := congrArg (· + 1) h.pos_eq }

/-- Levels are opened together. -/
theorem nested (h : Follows g k s s₂) : Follows g k (s.nested 1) (s₂.nested 1) :=
  { h with depth_eq := by simp only [State.depth_nested, h.depth_eq] }

/-- Nodes are counted together. -/
theorem after (h : Follows g k s s₂) : Follows g k (s.after 0 1) (s₂.after 0 1) :=
  { h with size_eq := congrArg (· + 1) h.size_eq }

end Follows

/-- An end no further on than a token, for a reason that a greater limit does not remove and that
does not lie in the token behind it. -/
def Within {α : Type} (k : Nat) : EStateM.Result Stop State α → Prop
  | .ok _ s => s.pos ≤ k
  | .error (.fault f) s => s.pos ≤ k ∧ (∀ l n, f.cause ≠ .nestingTooDeep l n) ∧
      (s.pos = k → k + 1 < s.tokens.size →
        ∀ l n, f.cause ≠ .expectedPrimary l (Cause.unknownFunctionWanted n))
  | .error _ _ => False

/-- A parser that does not end at the token where it starts, if another one follows: it goes on, or
it stops there for a reason that lies in the token behind it. -/
def Passes {α : Type} (p : Parser α) : Prop :=
  ∀ s, s.pos + 1 < s.tokens.size → ¬ Within s.pos (p s)

/-- Two ends agree: with results that correspond, or with one fault. -/
def Matched {α β : Type} (g : Token → Token) (φ : α → β) (k : Nat) :
    EStateM.Result Stop State α → EStateM.Result Stop State β → Prop
  | .ok a s, .ok b s₂ => b = φ a ∧ Follows g k s s₂
  | .error (.fault f) s, .error (.fault f₂) s₂ =>
      (∃ t : Token, f = f.movedTo t ∧ f₂ = f.movedTo (g t)) ∧ Follows g k s s₂
  | _, _ => False

/-- The first parser keeps to the conduct, and the second one mirrors it. -/
structure Mirrors {α β : Type} (g : Token → Token) (φ : α → β) (p : Parser α) (q : Parser β) :
    Prop where
  /-- The conduct of the first parser. -/
  conduct : ∀ s, Conduct s (p s)
  /-- From states that agree both ends agree. -/
  matched : ∀ k s s₂, Follows g k s s₂ → Within k (p s) → Matched g φ k (p s) (q s₂)

/-- The token behind the one at the cursor, or else the last one. -/
theorem peek_one_eq {s : State} {t : Token}
    (h : s.tokens[min (s.pos + 1) (s.tokens.size - 1)]? = some t) : peek 1 s = .ok t s := by
  have hsize : 0 < s.tokens.size := Nat.zero_lt_of_lt (Array.getElem?_eq_some_iff.mp h).1
  have hpos : ¬ (s.pos : Int) + 1 < 0 := by omega
  by_cases hlt : s.pos + 1 < s.tokens.size
  · have hint : (s.pos : Int) + 1 < s.tokens.size := by omega
    have hnat : ((s.pos : Int) + 1).toNat = min (s.pos + 1) (s.tokens.size - 1) := by omega
    simp only [peek, hint, hpos, ite_true, ite_false, hnat, h]
  · have hint : ¬ (s.pos : Int) + 1 < s.tokens.size := by omega
    have hle : ¬ (s.tokens.size : Int) - 1 < 0 := by omega
    have hnat : ((s.tokens.size : Int) - 1).toNat = min (s.pos + 1) (s.tokens.size - 1) := by omega
    simp only [peek, hint, hle, ite_false, hnat, h]

/-- Without tokens there is none to look at. -/
theorem peek_one_of_none {s : State}
    (h : s.tokens[min (s.pos + 1) (s.tokens.size - 1)]? = none) :
    peek 1 s = .error (.noToken false) s := by
  have hsize := Array.getElem?_eq_none_iff.mp h
  have hempty : s.tokens = #[] := Array.eq_empty_of_size_eq_zero (by omega)
  simp [peek, hempty]

section Results

variable {α β : Type} {g : Token → Token} {k : Nat} {s s₂ : State}

/-- Every end within reach is no further on than the token. -/
theorem Within.pos_le {x : EStateM.Result Stop State α} (h : Within k x) :
    (finalState x).pos ≤ k := by
  cases x with
  | ok a s => exact h
  | error e s =>
    cases e with
    | fault f => exact h.1
    | _ => exact h.elim

/-- Only a fault stops within reach. -/
theorem Within.exists_fault {e : Stop} (h : Within k (.error e s : EStateM.Result Stop State α)) :
    ∃ f, e = .fault f := by
  cases e with
  | fault f => exact ⟨f, rfl⟩
  | _ => exact h.elim

end Results

/-- Skipping a token passes it. -/
theorem Passes.skip_bind {α : Type} {f : Unit → Parser α} (hf : ∀ s, Conduct s (f () s)) :
    Passes (discard advance >>= f) := by
  intro s hlt hw
  have ht : s.tokens[s.pos]? = some s.tokens[s.pos] := Array.getElem?_eq_getElem (by omega)
  have hskip : discard advance s = .ok () { s with pos := s.pos + 1 } := by
    show EStateM.map _ advance s = _
    rw [EStateM.map, advance, ht]
    simp only [if_pos hlt]
  rw [bind_of_ok hskip] at hw
  have hle : s.pos + 1 ≤ _ := (hf { s with pos := s.pos + 1 }).pos_le
  exact Nat.not_succ_le_self _ (Nat.le_trans hle hw.pos_le)

namespace Mirrors

variable {α β γ δ : Type} {g : Token → Token}

/-- Two parsers in a row are mirrored one by one. -/
theorem bind {φ : α → β} {ψ : γ → δ} {p : Parser α} {q : Parser β} {f : α → Parser γ}
    {h : β → Parser δ} (hp : Mirrors g φ p q) (hf : ∀ a, Mirrors g ψ (f a) (h (φ a))) :
    Mirrors g ψ (p >>= f) (q >>= h) := by
  refine ⟨fun s => (hp.conduct s).bind fun a => (hf a).conduct, fun k s s₂ hs hw => ?_⟩
  have hm := hp.matched k s s₂ hs
  rw [bind_apply] at hw ⊢
  rw [bind_apply]
  cases hx : p s with
  | ok a s₁ =>
    rw [hx] at hm hw
    have hle := Nat.le_trans ((hf a).conduct s₁).pos_le hw.pos_le
    have hm := hm hle
    cases hy : q s₂ with
    | ok b s₃ =>
      rw [hy] at hm
      obtain ⟨rfl, hs₁⟩ := hm
      exact (hf a).matched k s₁ s₃ hs₁ hw
    | error e s₃ =>
      rw [hy] at hm
      exact hm.elim
  | error e s₁ =>
    rw [hx] at hm hw
    obtain ⟨f, rfl⟩ := hw.exists_fault
    have hm := hm hw
    cases hy : q s₂ with
    | ok b s₃ =>
      rw [hy] at hm
      exact hm.elim
    | error e s₃ =>
      rw [hy] at hm
      cases e with
      | fault f₂ => exact hm
      | _ => exact hm.elim

/-- A result is mirrored by what it corresponds to. -/
theorem pure (φ : α → β) (a : α) : Mirrors g φ (Pure.pure a) (Pure.pure (φ a)) :=
  ⟨.refl a, fun _ _ _ hs _ => ⟨rfl, hs⟩⟩

/-- A stop that is no fault is out of reach, so that anything mirrors it. -/
theorem throw {φ : α → β} {e : Stop} (he : ∀ f, e ≠ .fault f) (q : Parser β) :
    Mirrors g φ (throw e) q := by
  refine ⟨.stop he, fun k s s₂ _ hw => ?_⟩
  obtain ⟨f, rfl⟩ := Within.exists_fault hw
  exact absurd rfl (he f)

/-- The tokens under the cursors correspond. -/
theorem current : Mirrors g g current current := by
  refine ⟨.current, fun k s s₂ hs hw => ?_⟩
  unfold Parser.current at hw ⊢
  split at hw
  · rename_i t ht
    have hle : s.pos ≤ k := hw
    have ht₂ : s₂.tokens[s₂.pos]? = some (g t) := by rw [hs.getElem?_pos hle, ht, Option.map_some]
    rw [ht₂]
    exact ⟨rfl, hs⟩
  · exact hw.elim

/-- The cursors move on together, or both stay at the last token. -/
theorem advance : Mirrors g g advance advance := by
  refine ⟨.advance, fun k s s₂ hs hw => ?_⟩
  unfold Parser.advance at hw ⊢
  split at hw
  · rename_i t ht
    have hlt : s.pos < s.tokens.size := (Array.getElem?_eq_some_iff.mp ht).1
    have hle : s.pos ≤ k := by
      simp only [Within] at hw
      split at hw
      · exact Nat.le_of_succ_le hw
      · exact hw
    have ht₂ : s₂.tokens[s₂.pos]? = some (g t) := by rw [hs.getElem?_pos hle, ht, Option.map_some]
    have hk₂ : k < s₂.tokens.size := hs.lt_size₂
    have hiff : s₂.pos + 1 < s₂.tokens.size ↔ s.pos + 1 < s.tokens.size := by
      rw [hs.pos_eq]
      by_cases hk : s.pos = k
      · rw [hk]
        exact hs.last_iff
      · have := hs.lt_size
        omega
    rw [ht₂]
    by_cases hmore : s.pos + 1 < s.tokens.size
    · simp only [if_pos hmore, if_pos (hiff.mpr hmore)]
      exact ⟨rfl, hs.moved⟩
    · simp only [if_neg hmore, if_neg (mt hiff.mp hmore)]
      exact ⟨rfl, hs⟩
  · exact hw.elim

/-- A syntax fault is mirrored at the token that corresponds. -/
theorem reject (φ : α → β) {cause : Lexeme → Cause} (hcause : GeneralCause cause) :
    Mirrors g φ (reject cause) (reject cause) := by
  refine ⟨fun s => .reject s fun t _ => hcause.foundAt t, fun k s s₂ hs hw => ?_⟩
  rw [reject_apply] at hw ⊢
  rw [reject_apply]
  split at hw
  · rename_i t ht
    have ht₂ : s₂.tokens[s₂.pos]? = some (g t) := by rw [hs.getElem?_pos hw.1, ht, Option.map_some]
    rw [ht₂]
    exact ⟨⟨t, (hcause.movedTo t t).symm, (hcause.movedTo t (g t)).symm⟩, hs⟩
  · exact hw.elim

/-- The same function is looked up. -/
theorem lookUp {φ : α → β} (hg : Completes id g) {p : Token → Function → Parser α}
    {q : Token → Function → Parser β} (hp : ∀ t f, Mirrors g φ (p t f) (q (g t) f)) :
    Mirrors g φ (lookUp p) (lookUp q) := by
  have hconduct (s : State) := Conduct.lookUp (fun t f => (hp t f).conduct) s
  refine ⟨hconduct, fun k s s₂ hs hw => ?_⟩
  have hle : s.pos ≤ k := Nat.le_trans (hconduct s).pos_le hw.pos_le
  have ht₂ := hs.getElem?_pos hle
  rw [lookUp_apply] at hw ⊢
  rw [lookUp_apply, ht₂]
  cases ht : s.tokens[s.pos]? with
  | none =>
    rw [ht] at hw
    exact hw.elim
  | some t =>
    simp only [ht] at hw
    simp only [Option.map_some, hg.getD_name?]
    cases hf : Function.ofName? (t.name?.getD "None") with
    | none => exact ⟨⟨t, rfl, rfl⟩, hs⟩
    | some f =>
      simp only [hf] at hw
      exact (hp t f).matched k s s₂ hs hw

/-- A level that can be opened can be opened under a greater limit. -/
theorem enter : Mirrors g id enter enter := by
  refine ⟨.enter, fun k s s₂ hs hw => ?_⟩
  rw [enter_eq] at hw ⊢
  rw [enter_eq]
  have hlimit := hs.limit_le
  have hdepth := hs.depth_eq
  by_cases hd : s.limit < s.depth + 1
  · rw [if_pos hd, reject_apply] at hw
    split at hw
    · exact absurd rfl (hw.2.1 _ _)
    · exact hw.elim
  · rw [if_neg hd, if_neg (by omega)]
    exact ⟨rfl, hs.nested⟩

/-- Levels are closed together. -/
theorem leave (levels : Nat) : Mirrors g id (leave levels) (leave levels) := by
  refine ⟨.leave levels, fun k s s₂ hs _ => ⟨rfl, ?_⟩⟩
  exact ⟨hs.pos_eq, by simp only [hs.depth_eq], hs.limit_le, hs.size_eq, hs.unreleased,
    hs.tokens_eq, hs.lt_size, hs.last_iff⟩

/-- Nodes are counted together. -/
theorem allocate (e : Expr) : Mirrors g id (allocate e) (allocate e) := by
  refine ⟨.allocate e, fun k s s₂ hs hw => ?_⟩
  cases hr : s.arena.released with
  | false =>
    rw [allocate_eq hr, allocate_eq (hs.unreleased hr)]
    exact ⟨rfl, hs.after⟩
  | true =>
    rw [allocate_of_released hr] at hw
    exact hw.elim

/-- The token behind the one at the cursor corresponds, unless it is out of reach. -/
theorem peek_bind {φ : α → β} {f : Token → Parser α} {h : Token → Parser β}
    (hf : ∀ t, Mirrors g φ (f t) (h (g t))) (hpasses : ∀ t, Passes (f t)) :
    Mirrors g φ (peek 1 >>= f) (peek 1 >>= h) := by
  refine ⟨fun s => (Conduct.peek 1 s).bind fun t => (hf t).conduct, fun k s s₂ hs hw => ?_⟩
  cases ht : s.tokens[min (s.pos + 1) (s.tokens.size - 1)]? with
  | none =>
    rw [bind_of_error (peek_one_of_none ht)] at hw
    exact hw.elim
  | some t =>
    rw [bind_of_ok (peek_one_eq ht)] at hw ⊢
    have hle : s.pos ≤ k := Nat.le_trans ((hf t).conduct s).pos_le hw.pos_le
    have hlast : s.pos = k → ¬ k + 1 < s.tokens.size := by
      rintro rfl hlt
      exact hpasses t s hlt hw
    have hk := hs.lt_size
    have hk₂ := hs.lt_size₂
    have hpos := hs.pos_eq
    have hiff := hs.last_iff
    have hreach : min (s.pos + 1) (s.tokens.size - 1) ≤ k := by omega
    have hindex : min (s₂.pos + 1) (s₂.tokens.size - 1) =
        min (s.pos + 1) (s.tokens.size - 1) := by omega
    have ht₂ : s₂.tokens[min (s₂.pos + 1) (s₂.tokens.size - 1)]? = some (g t) := by
      rw [hindex, hs.tokens_eq _ hreach, ht, Option.map_some]
    rw [bind_of_ok (peek_one_eq ht₂)]
    exact (hf t).matched k s s₂ hs hw

end Mirrors

end Parser

end Reckoner
