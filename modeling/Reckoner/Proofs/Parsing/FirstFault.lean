import Reckoner.Proofs.Parsing.Viability
import Reckoner.Proofs.Parsing.Walk

/-!
# A syntax fault is at the first wrong token

The tokens before a fault of the parser can be continued to a sentence of the grammar, and together
with the token at fault they cannot. Only a name that is called and is not the name of a function is
rejected one token too early: it might still stand for itself, but not before the parenthesis that
follows it.
-/

namespace Reckoner

/-- Every token of a derivation is complete. -/
theorem Derives.isComplete {l : Level} {ts : List Token} {t : Expr} {d : Nat}
    (h : Derives l ts t d) : ∀ u ∈ ts, u.IsComplete := by
  induction h with
  | product _ ih | signed _ ih | power _ ih | primary _ ih => exact ih
  | addSub ho _ _ ihl ihr =>
    refine List.forall_mem_append.mpr ⟨ihl, List.forall_mem_cons.mpr ⟨?_, ihr⟩⟩
    rcases ho with ⟨ho, -⟩ | ⟨ho, -⟩ <;> simp [Token.IsComplete, ho]
  | mulDiv ho _ _ ihl ihr =>
    refine List.forall_mem_append.mpr ⟨ihl, List.forall_mem_cons.mpr ⟨?_, ihr⟩⟩
    rcases ho with ⟨ho, -⟩ | ⟨ho, -⟩ | ⟨ho, -⟩ <;> simp [Token.IsComplete, ho]
  | sign ho _ ih =>
    refine List.forall_mem_cons.mpr ⟨?_, ih⟩
    rcases ho with ⟨ho, -⟩ | ⟨ho, -⟩ <;> simp [Token.IsComplete, ho]
  | raise ho _ _ ihl ihr | comma ho _ _ ihl ihr =>
    refine List.forall_mem_append.mpr ⟨ihl, List.forall_mem_cons.mpr ⟨?_, ihr⟩⟩
    simp [Token.IsComplete, ho]
  | number ht | name ht => simp [Token.IsComplete, ht]
  | group hlp hrp _ ih =>
    refine List.forall_mem_append.mpr ⟨List.forall_mem_cons.mpr ⟨?_, ih⟩, ?_⟩ <;>
      simp [Token.IsComplete, hlp, hrp]
  | callEmpty hn hlp hrp => simp [Token.IsComplete, hn, hlp, hrp]
  | call hrp _ ih => exact List.forall_mem_append.mpr ⟨ih, by simp [Token.IsComplete, hrp]⟩
  | argument hn hlp _ ih => simpa [Token.IsComplete, hn, hlp] using ih

/-- Tokens that make up an expression, with all filled in that they lack. -/
def IsSentence (ts : List Token) : Prop := ∃ t d, Derives .sum (ts.map Token.completed) t d

/-- Tokens that can be continued to a sentence. -/
def IsViable (ts : List Token) : Prop := ∃ us, IsSentence (ts ++ us)

namespace Parser

variable {ts us a r r' : List Token} {e t : Token} {s s' : State} {f : Fault} {k : Nat}

/-- A parser that stops has not touched its tokens. -/
theorem tokens_of_parse {stop : Stop} (hts : isTerminated ts = true)
    (h : parse ts s = .error stop s') : s'.tokens = ts.toArray := by
  have htokens := (conduct_parse hts s).tokens_eq
  rwa [h] at htokens

/-- A fault of the parser blames one of the tokens, at which the cursor stands. -/
theorem exists_blamed (hts : isTerminated ts = true) (h : parse ts s = .error (.fault f) s') :
    ∃ before t after, ts = before ++ t :: after ∧ s'.pos = before.length ∧ f.span = t.span ∧
      f.cause.FoundAt t := by
  obtain ⟨t, ht, hspan, hfound⟩ := (conduct_parse hts s).fault f s' h
  rw [tokens_of_parse hts h, List.getElem?_toArray] at ht
  obtain ⟨hlt, rfl⟩ := List.getElem?_eq_some_iff.mp ht
  refine ⟨ts.take s'.pos, _, ts.drop (s'.pos + 1), ?_, ?_, hspan, hfound⟩
  · rw [← List.drop_eq_getElem_cons, List.take_append_drop]
  · simp
    omega

/-- Up to a fault complete tokens start a sum. -/
theorem stuck_of_parse (hus : ∀ t ∈ us, t.IsComplete) (he : e.lexeme = .eof) (hlimit : 0 ≤ s.limit)
    (h : parse (us ++ [e]) s = .error (.fault f) s') :
    Stuck (s.loaded (us ++ [e])) f s' (Starts .sum) := by
  have hs := legible_loaded hus he hlimit
  rw [parse_eq (isTerminated_append_singleton us he)] at h
  rcases bind_eq_error h with h | ⟨t, s₁, h₁, h⟩
  · exact Rule.sum.viable _ hs h
  · obtain ⟨ts, d, hc, hd, -⟩ := Rule.sum.sound _ hs h₁
    obtain ⟨o, r, hr⟩ := hc.ready.exists_cons
    rw [afterSum_eq hr] at h
    split at h
    · cases h
    · cases h
      exact hc.stuck hd rfl (justified_of_ne (by simp [Token.fault]))

/-- No sentence goes on where a parser stops at a fault. -/
theorem not_derives_of_fault (hk : a.length = k + 1) (hr : r' = [] ↔ r = [])
    (hts : isTerminated (a ++ r) = true) (h : parse (a ++ r) s = .error (.fault f) s')
    (hw : Within k (parse (a ++ r) s)) (he : e.lexeme = .eof)
    (hus : us ++ [e] = a.map Token.completed ++ r') {x : Expr} {d : Nat} :
    ¬ Derives .sum us x d := by
  intro hd
  have hok := parse_of_derives he (s := s.roomy d) rfl hd (Int.le_max_right _ _)
  have hterm := isTerminated_append_singleton us he
  rw [hus] at hok hterm
  have hm := matched_parse completes_completed hts hterm (.loaded hk hr s d) hw
  rw [h, hok] at hm
  exact hm

/-- Where a parser stops before the last token, no sentence goes on with that one. -/
theorem not_isViable_of_fault (hk : a.length = k + 1) (hr : r ≠ [])
    (hts : isTerminated (a ++ r) = true) (h : parse (a ++ r) s = .error (.fault f) s')
    (hw : Within k (parse (a ++ r) s)) (he : e.lexeme = .eof) : ¬ IsViable a := by
  rintro ⟨us, x, d, hd⟩
  have hus : (a ++ us).map Token.completed ++ [e] =
      a.map Token.completed ++ (us.map Token.completed ++ [e]) := by simp
  exact not_derives_of_fault hk (by simp [hr]) hts h hw he hus hd

/-- Where a parser stops at the end of the input, the tokens before it are no sentence. -/
theorem not_isSentence_of_fault (he : e.lexeme = .eof)
    (h : parse (ts ++ [e]) s = .error (.fault f) s')
    (hw : Within ts.length (parse (ts ++ [e]) s)) : ¬ IsSentence ts := by
  rintro ⟨x, d, hd⟩
  have hk : (ts ++ [e]).length = ts.length + 1 := by simp
  have hus : ts.map Token.completed ++ [e] = (ts ++ [e]).map Token.completed ++ [] := by
    rw [map_completed_append he, List.append_nil]
  have hterm := isTerminated_append_singleton ts he
  rw [← List.append_nil (ts ++ [e])] at hterm h hw
  exact not_derives_of_fault hk Iff.rfl hterm h hw he hus hd

section Blamed

variable {before after : List Token}

/-- A fault before which tokens were read is within reach of the token that it blames, if it is no
matter of nesting and does not reject the name of a function. -/
theorem within_of_fault {x : EStateM.Result Stop State Expr} (hx : x = .error (.fault f) s')
    (hpos : s'.pos ≤ k) (hnest : ∀ l n, f.cause ≠ .nestingTooDeep l n)
    (hknown : s'.pos = k → k + 1 < s'.tokens.size →
      ∀ l n, f.cause ≠ .expectedPrimary l (Cause.unknownFunctionWanted n)) :
    Within k x := by
  rw [hx]
  exact ⟨hpos, hnest, hknown⟩

/-- Up to a fault the tokens, with all filled in that they lack, start a sum, and there is a fault
at the same place that is justified. -/
theorem starts_before (hts : ∀ t ∈ ts, t.lexeme ≠ .eof) (he : e.lexeme = .eof)
    (hsplit : ts ++ [e] = before ++ t :: after) (hpos : s'.pos = before.length)
    (h : parse (ts ++ [e]) s = .error (.fault f) s')
    (hnest : ∀ l n, f.cause ≠ .nestingTooDeep l n) :
    Starts .sum (before.map Token.completed) ∧
      ∃ (u : Token) (s₂ : State), s₂.rest = (t :: after).map Token.completed ∧
        Justified (f.movedTo u) s₂ := by
  have hterm := isTerminated_append_singleton ts he
  have hterm₂ := isTerminated_append_singleton (ts.map Token.completed) he
  have hmap : ts.map Token.completed ++ [e] =
      before.map Token.completed ++ (t :: after).map Token.completed := by
    rw [← map_completed_append he, hsplit, List.map_append]
  have hle : s'.pos ≤ ts.length := by
    have hlength := congrArg List.length hsplit
    simp at hlength
    omega
  have hlast : ¬ ts.length + 1 < s'.tokens.size := by simp [tokens_of_parse hterm h]
  have hm := matched_parse_completed he s 0
    (within_of_fault h hle hnest fun _ hlt => absurd hlt hlast)
  rw [h] at hm
  cases hp : parse (ts.map Token.completed ++ [e]) (s.roomy 0) with
  | ok x s₂ =>
    rw [hp] at hm
    exact hm.elim
  | error stop s₂ =>
    rw [hp] at hm
    cases stop with
    | fault f₂ =>
      obtain ⟨⟨u, -, rfl⟩, hfollows⟩ := hm
      have hrest : s₂.rest = (t :: after).map Token.completed := by
        rw [State.rest, tokens_of_parse hterm₂ hp, hmap, hfollows.pos_eq, hpos]
        simp
      have hcomplete := Token.isComplete_of_mem_map hts
      have hstuck := stuck_of_parse hcomplete he (Int.le_max_right _ _) hp
      obtain ⟨vs, hvs, hstarts⟩ := hstuck.passed
      rw [State.rest_loaded, hmap, hrest] at hvs
      obtain rfl := List.append_cancel_right hvs
      exact ⟨hstarts, u.completed, s₂, hrest, hstuck.justified⟩
    | _ => exact hm.elim

/-- Tokens with which a sum starts can be continued to a sentence. -/
theorem isViable_of_starts (h : Starts .sum (before.map Token.completed)) : IsViable before := by
  obtain ⟨vs, x, d, hd⟩ := h
  have hcomplete : ∀ v ∈ vs, v.completed = v := fun v hv =>
    (hd.isComplete v (List.mem_append_right _ hv)).completed_eq
  have hvs : vs.map Token.completed = vs :=
    (List.map_congr_left hcomplete).trans (List.map_id vs)
  exact ⟨vs, x, d, by rwa [List.map_append, hvs]⟩

/-- Where a name is rejected as that of a function, it is called and is not the name of one. -/
theorem exists_unknown {u : Token} {s₂ : State} {l : Lexeme} {n : String}
    (hcause : f.cause = .expectedPrimary l (Cause.unknownFunctionWanted n))
    (hfound : f.cause.found? = some t.lexeme) (hrest : s₂.rest = (t :: after).map Token.completed)
    (hjust : Justified (f.movedTo u) s₂) :
    ∃ name lp rest, f.cause = .expectedPrimary t.lexeme (Cause.unknownFunctionWanted name) ∧
      t.completed.lexeme = .identifier (some name) ∧ Function.ofName? name = none ∧
      after = lp :: rest ∧ lp.lexeme = .lparen := by
  have hmoved : (f.movedTo u).cause =
      .expectedPrimary u.lexeme (Cause.unknownFunctionWanted n) := by
    rw [Fault.movedTo, hcause]
    rfl
  obtain ⟨m, lp, r, name, hr, hm, hlp, hnone, hcause'⟩ := hjust _ _ hmoved
  rw [hrest, List.map_cons] at hr
  obtain ⟨rfl, htail⟩ := List.cons.inj hr
  obtain ⟨lp', rest, rfl, rfl, -⟩ := List.map_eq_cons_iff.mp htail
  have hwanted := (Cause.expectedPrimary.inj (hmoved.symm.trans hcause')).2
  have hl : l = t.lexeme := by
    rw [hcause] at hfound
    exact Option.some.inj hfound
  refine ⟨name, lp', rest, ?_, hm, hnone, rfl, ?_⟩
  · rw [hcause, hl, hwanted]
  · exact (completes_completed.eq_iff (by simp) (by simp) lp').mp hlp

/-- A terminated sequence goes on behind a token that does not end the input. -/
theorem ne_nil_of_isTerminated (h : isTerminated (before ++ t :: after) = true)
    (ht : t.lexeme ≠ .eof) : after ≠ [] := by
  rintro rfl
  simp [isTerminated, ht] at h

end Blamed

/-- A syntax fault other than one of nesting is at the first wrong token. The tokens before it can
be continued to a sentence; with it they cannot, and if it ends the input they are no sentence. Only
for a name that is called and not the name of a function it takes the parenthesis behind it. -/
theorem first_wrong_of_parse (hts : ∀ t ∈ ts, t.lexeme ≠ .eof) (he : e.lexeme = .eof)
    (h : parse (ts ++ [e]) s = .error (.fault f) s')
    (hnest : ∀ l n, f.cause ≠ .nestingTooDeep l n) :
    ∃ before t after, ts ++ [e] = before ++ t :: after ∧ s'.pos = before.length ∧
      f.span = t.span ∧ f.cause.found? = some t.lexeme ∧ IsViable before ∧
      (t.lexeme = .eof ∧ ¬ IsSentence before ∨
        t.lexeme ≠ .eof ∧ ¬ IsViable (before ++ [t]) ∨
        ∃ name lp rest, f.cause = .expectedPrimary t.lexeme (Cause.unknownFunctionWanted name) ∧
          t.completed.lexeme = .identifier (some name) ∧ Function.ofName? name = none ∧
          after = lp :: rest ∧ lp.lexeme = .lparen ∧ ¬ IsViable (before ++ [t, lp])) := by
  have hterm := isTerminated_append_singleton ts he
  obtain ⟨before, t, after, hsplit, hpos, hspan, hfound⟩ := exists_blamed hterm h
  obtain ⟨hstarts, u, s₂, hrest, hjust⟩ := starts_before hts he hsplit hpos h hnest
  refine ⟨before, t, after, hsplit, hpos, hspan, hfound.found?_eq, isViable_of_starts hstarts,
    ?_⟩
  by_cases hunknown : ∃ l n, f.cause = .expectedPrimary l (Cause.unknownFunctionWanted n)
  · -- The fault stands one token before the one that is wrong.
    obtain ⟨l, n, hcause⟩ := hunknown
    obtain ⟨name, lp, rest, hcause, hname, hnone, rfl, hlp⟩ :=
      exists_unknown hcause hfound.found?_eq hrest hjust
    refine .inr (.inr ⟨name, lp, rest, hcause, hname, hnone, rfl, hlp, ?_⟩)
    have hcons : ts ++ [e] = (before ++ [t, lp]) ++ rest := by simp [hsplit]
    have hk : (before ++ [t, lp]).length = (before.length + 1) + 1 := by simp
    have htail : isTerminated ((before ++ [t]) ++ lp :: rest) = true := by
      simpa [hsplit] using hterm
    have hrest := ne_nil_of_isTerminated htail (by simp [hlp])
    rw [hcons] at hterm h
    refine not_isViable_of_fault hk hrest hterm h ?_ he
    exact within_of_fault h (by omega) hnest fun hk => by omega
  · push Not at hunknown
    by_cases ht : t.lexeme = .eof
    · -- The token is the last one, and all before it were read.
      obtain rfl := eq_of_append_eof hts ht hsplit
      obtain ⟨rfl, rfl⟩ := List.cons.inj (List.append_cancel_left hsplit)
      refine .inl ⟨ht, not_isSentence_of_fault he h ?_⟩
      exact within_of_fault h (Nat.le_of_eq hpos) hnest fun _ _ => hunknown
    · refine .inr (.inl ⟨ht, ?_⟩)
      rw [hsplit] at hterm h
      have hafter := ne_nil_of_isTerminated hterm ht
      have hcons : before ++ t :: after = (before ++ [t]) ++ after := by simp
      have hk : (before ++ [t]).length = before.length + 1 := by simp
      rw [hcons] at hterm h
      refine not_isViable_of_fault hk hafter hterm h ?_ he
      exact within_of_fault h (Nat.le_of_eq hpos) hnest fun _ _ => hunknown

/-- In `2)` the parenthesis is the first wrong token. -/
theorem first_wrong_unopened :
    (∃ s', parse ([⟨.number (some (.integer ⟨2, rfl⟩)), ⟨0, 1⟩⟩, ⟨.rparen, ⟨1, 2⟩⟩] ++
      [⟨.eof, ⟨2, 2⟩⟩]) (.initial .empty 100) =
        .error (.fault ⟨.trailingInput .rparen, ⟨1, 2⟩⟩) s') ∧
    IsViable [⟨.number (some (.integer ⟨2, rfl⟩)), ⟨0, 1⟩⟩] ∧
    ¬ IsViable [⟨.number (some (.integer ⟨2, rfl⟩)), ⟨0, 1⟩⟩, ⟨.rparen, ⟨1, 2⟩⟩] := by
  have h : parse ([⟨.number (some (.integer ⟨2, rfl⟩)), ⟨0, 1⟩⟩, ⟨.rparen, ⟨1, 2⟩⟩] ++
      [⟨.eof, ⟨2, 2⟩⟩]) (.initial .empty 100) =
        .error (.fault ⟨.trailingInput .rparen, ⟨1, 2⟩⟩) _ := rfl
  obtain ⟨before, t, after, hsplit, hpos, -, -, hviable, hwrong⟩ :=
    first_wrong_of_parse (by decide) rfl h (by simp)
  obtain ⟨x, rfl⟩ := List.length_eq_one_iff.mp (show before.length = 1 from hpos.symm)
  simp only [List.cons_append, List.nil_append, List.cons.injEq] at hsplit
  obtain ⟨rfl, rfl, -⟩ := hsplit
  refine ⟨⟨_, h⟩, hviable, ?_⟩
  rcases hwrong with ⟨ht, -⟩ | ⟨-, hwrong⟩ | ⟨name, lp, rest, hcause, -⟩
  · cases ht
  · exact hwrong
  · cases hcause

end Parser

end Reckoner
