import Reckoner.Proofs.Parsing.Mirrors
import Reckoner.Proofs.Parsing.Soundness

/-!
# What is read up to a fault can be completed

Where a rule stops at a fault, the tokens from the cursor up to the one at fault are the start of
something that the rule describes: what is open can be closed, and what is lacking can be filled
with a number. As with a success, what follows a first part is stated for every derivation of that
part. A name is only rejected as the name of a function when an opening parenthesis follows it.
-/

namespace Reckoner.Parser

/-- Tokens that expressions of a level can start with. -/
def Starts (l : Level) (us : List Token) : Prop := ∃ vs t d, Derives l (us ++ vs) t d

/-- A fault that rejects the name of a function stands at such a name before a parenthesis. -/
def Justified (f : Fault) (s' : State) : Prop :=
  ∀ l n, f.cause = .expectedPrimary l (Cause.unknownFunctionWanted n) →
    ∃ m lp r name, s'.rest = m :: lp :: r ∧ m.lexeme = .identifier (some name) ∧
      lp.lexeme = .lparen ∧ Function.ofName? name = none ∧
      f.cause = .expectedPrimary m.lexeme (Cause.unknownFunctionWanted name)

/-- A parser stopped at a fault, and the tokens that it passed over have a property. -/
structure Stuck (s : State) (f : Fault) (s' : State) (p : List Token → Prop) : Prop where
  /-- The tokens that were passed over. -/
  passed : ∃ us, s.rest = us ++ s'.rest ∧ p us
  /-- The fault is justified. -/
  justified : Justified f s'

/-- A number to put where one is lacking. -/
private def spareNumber : Token := Token.completed ⟨.number none, default⟩

/-- A parenthesis to put where one is open. -/
private def closing : Token := ⟨.rparen, default⟩

section Stops

variable {α β : Type} {s s₁ s' : State} {f : Fault} {e : Stop} {l l' : Level} {ts us : List Token}
  {t u : Token} {r : List Token}

/-- Every part of an expression can start with nothing. -/
theorem starts_nil (hl : l ≠ .openCall) : Starts l [] := by
  have hprimary : Derives .primary [spareNumber] _ 0 := .number rfl
  cases l with
  | sum => exact ⟨[spareNumber], _, _, .product (.signed (.power (.primary hprimary)))⟩
  | product => exact ⟨[spareNumber], _, _, .signed (.power (.primary hprimary))⟩
  | signed => exact ⟨[spareNumber], _, _, .power (.primary hprimary)⟩
  | power => exact ⟨[spareNumber], _, _, .primary hprimary⟩
  | primary => exact ⟨[spareNumber], _, _, hprimary⟩
  | openCall => exact absurd rfl hl

/-- What starts a part starts the whole, if the part can be completed to the whole. -/
theorem Starts.within (h : Starts l us)
    (hd : ∀ vs t d, Derives l vs t d → Starts l' (ts ++ vs)) : Starts l' (ts ++ us) := by
  obtain ⟨vs, t, d, hvs⟩ := h
  obtain ⟨ws, t', d', hws⟩ := hd _ t d hvs
  exact ⟨vs ++ ws, t', d', by simpa using hws⟩

/-- What is derived starts itself. -/
theorem Starts.of_derives {t : Expr} {d : Nat} (h : Derives l us t d) : Starts l us :=
  ⟨[], t, d, by simpa using h⟩

/-- Tokens that were passed over before do not change where a parser is stuck. -/
theorem Stuck.within {p q : List Token → Prop} (h : Stuck s₁ f s' p) (hts : s.rest = ts ++ s₁.rest)
    (hq : ∀ us, p us → q (ts ++ us)) : Stuck s f s' q := by
  obtain ⟨us, hus, hp⟩ := h.passed
  exact ⟨⟨ts ++ us, by rw [hts, hus, List.append_assoc], hq us hp⟩, h.justified⟩

/-- A fault for another reason than an unknown function is justified. -/
theorem justified_of_ne (h : ∀ l n, f.cause ≠ .expectedPrimary l (Cause.unknownFunctionWanted n)) :
    Justified f s' :=
  fun l n hcause => absurd hcause (h l n)

/-- What a primary starts with is not said of a name. -/
theorem primaryWanted_ne (name : String) :
    Cause.primaryWanted ≠ Cause.unknownFunctionWanted name := by
  have hprimary : Cause.primaryWanted.toList.head? = some 'e' := by decide +kernel
  have hunknown : (Cause.unknownFunctionWanted name).toList.head? = some 'u' := by
    have hhead : "unknown function '".toList.head? = some 'u' := by simp
    unfold Cause.unknownFunctionWanted
    simp only [String.toList_append, List.append_assoc, List.head?_append, hhead, Option.some_or]
  intro h
  rw [h, hunknown] at hprimary
  cases hprimary

/-- A fault before any token is passed over. -/
theorem Stuck.here {p : List Token → Prop} (hrest : s'.rest = s.rest) (hp : p [])
    (h : Justified f s') : Stuck s f s' p :=
  ⟨⟨[], by rw [hrest, List.nil_append], hp⟩, h⟩

/-- A part that was read starts itself, where a parser stops behind it. -/
theorem Consumes.stuck {k d : Nat} {t : Expr} (hc : Consumes s ts k s₁) (hd : Derives l ts t d)
    (hrest : s'.rest = s₁.rest) (h : Justified f s') : Stuck s f s' (Starts l) :=
  ⟨⟨ts, by rw [hc.rest_eq, hrest], .of_derives hd⟩, h⟩

/-- Of two parsers in a row the first one stops, or the second one after it. -/
theorem bind_eq_error {p : Parser α} {g : α → Parser β} (h : (p >>= g) s = .error e s') :
    p s = .error e s' ∨ ∃ a s₁, p s = .ok a s₁ ∧ g a s₁ = .error e s' := by
  rw [bind_apply] at h
  cases hp : p s with
  | ok a s₁ =>
    rw [hp] at h
    exact .inr ⟨a, s₁, rfl, h⟩
  | error e₁ s₁ =>
    rw [hp] at h
    cases h
    exact .inl rfl

/-- Counting a node finds no fault. -/
theorem allocate_ne_fault (x : Expr) : allocate x s ≠ .error (.fault f) s' := by
  intro h
  cases hr : s.arena.released with
  | false => rw [allocate_eq hr] at h; cases h
  | true => rw [allocate_of_released hr] at h; cases h

theorem underSigns_ne_fault (read : List (Sign × Span)) (x : Expr) :
    underSigns read x s ≠ .error (.fault f) s' := by
  induction read generalizing s x with
  | nil => exact fun h => by cases h
  | cons p read ih =>
    intro h
    rcases bind_eq_error h with h | ⟨x', s₁, -, h⟩
    · exact allocate_ne_fault _ h
    · exact ih _ h

/-- A fault after a token that does not end the input. -/
theorem skip_bind_eq_error {g : Unit → Parser β} (hs : s.Ready) (hr : s.rest = t :: r)
    (ht : t.lexeme ≠ .eof) (h : (discard advance >>= g) s = .error e s') :
    Consumes s [t] 0 (s.after 1 0) ∧ g () (s.after 1 0) = .error e s' := by
  refine ⟨.one hs hr ht, ?_⟩
  obtain ⟨⟨u, v, rfl⟩, -⟩ := hs.after_one hr ht
  rwa [skip_bind hr] at h

/-- A fault after opening a level is found inside it, or the level is one too many. -/
theorem enter_bind_eq_error {g : Unit → Parser β} (hs : s.Ready)
    (h : (enter >>= g) s = .error (.fault f) s') :
    s.depth < s.limit ∧ g () (s.nested 1) = .error (.fault f) s' ∨
      s'.rest = s.rest ∧ Justified f s' := by
  obtain ⟨t, r, hr⟩ := hs.exists_cons
  by_cases hd : s.depth < s.limit
  · exact .inl ⟨hd, by rwa [enter_bind hd] at h⟩
  · rw [enter_bind_of_le hr (by omega)] at h
    cases h
    exact .inr ⟨rfl, justified_of_ne (by simp [Token.fault])⟩

/-- A fault at closing a group or an argument list, or after it. -/
theorem close_bind_eq_error {g : Unit → Parser β} (hs : s.Ready)
    (h : (close >>= g) (s.nested 1) = .error (.fault f) s') :
    (s'.rest = s.rest ∧ Justified f s') ∨ ∃ s₁, g () s₁ = .error (.fault f) s' := by
  obtain ⟨t, r, hr⟩ := hs.exists_cons
  by_cases ht : t.lexeme = .rparen
  · obtain ⟨⟨u, v, rfl⟩, -⟩ := hs.after_one hr (by simp [ht])
    rw [close_bind hr ht] at h
    exact .inr ⟨_, h⟩
  · rw [close_bind_of_ne hr ht] at h
    cases h
    exact .inl ⟨rfl, justified_of_ne (by simp [Token.fault])⟩

end Stops

/-- After these tokens a further argument makes an open call. -/
def Opens (f : Function) (span : Span) (before : List Expr) (ts : List Token) : Prop :=
  ∀ us t d, Derives .sum us t d → ∃ e, Derives .openCall (ts ++ us) (.call f (before ++ [t]) span) e

/-- What a fault says about a rule: what was passed over starts what the rule describes. -/
def Rule.Viable (n : Nat) (s : State) (f : Fault) (s' : State) : Rule → Prop
  | .sum => sum.readWithin n s = .error (.fault f) s' → Stuck s f s' (Starts .sum)
  | .sumAfter left => (sumAfter left).readWithin n s = .error (.fault f) s' →
    Stuck s f s' fun us => ∀ ts d, Derives .sum ts left d → Starts .sum (ts ++ us)
  | .product => product.readWithin n s = .error (.fault f) s' → Stuck s f s' (Starts .product)
  | .productAfter left => (productAfter left).readWithin n s = .error (.fault f) s' →
    Stuck s f s' fun us => ∀ ts d, Derives .product ts left d → Starts .product (ts ++ us)
  | .signed => signed.readWithin n s = .error (.fault f) s' → Stuck s f s' (Starts .signed)
  | .power => power.readWithin n s = .error (.fault f) s' → Stuck s f s' (Starts .power)
  | .primary => primary.readWithin n s = .error (.fault f) s' → Stuck s f s' (Starts .primary)
  | .group => ∀ lp r, s.rest = lp :: r → lp.lexeme = .lparen →
    group.readWithin n s = .error (.fault f) s' → Stuck s f s' (Starts .primary)
  | .call => ∀ m lp r, s.rest = m :: lp :: r → lp.lexeme = .lparen →
    (∃ x, m.lexeme = .identifier x) →
    call.readWithin n s = .error (.fault f) s' → Stuck s f s' (Starts .primary)
  | .arguments g span read => s.depth < s.limit →
    (arguments g span read).readWithin n (s.nested 1) = .error (.fault f) s' →
    Stuck s f s' fun us => ∀ ts, Opens g span read.reverse ts → Starts .primary (ts ++ us)

section Rules

variable {n : Nat} {s s' : State} {f : Fault}
  (ih : ∀ (r : Rule) (s : State) (f : Fault) (s' : State), Legible s → r.Viable n s f s')

include ih

/-- An operand of a chain was not read. -/
private theorem operand_viable {c : Chain} (hs : Legible s)
    (h : c.operand.readWithin n s = .error (.fault f) s') :
    Stuck s f s' (Starts c.operandLevel) := by
  cases c with
  | sum => exact ih .product s f s' hs h
  | product => exact ih .signed s f s' hs h

/-- What follows the first part of a chain was not read. -/
private theorem following_viable {c : Chain} {left : Expr} (hs : Legible s)
    (h : (c.after left).readWithin n s = .error (.fault f) s') :
    Stuck s f s' fun us => ∀ ts d, Derives c.level ts left d → Starts c.level (ts ++ us) := by
  cases c with
  | sum => exact ih (.sumAfter left) s f s' hs h
  | product => exact ih (.productAfter left) s f s' hs h

private theorem rule_viable (c : Chain) (hs : Legible s)
    (h : c.rule.readWithin (n + 1) s = .error (.fault f) s') : Stuck s f s' (Starts c.level) := by
  rw [c.readWithin_rule] at h
  rcases bind_eq_error h with h | ⟨left, s₁, h₁, h⟩
  · refine (operand_viable ih hs h).within (List.nil_append _).symm fun us hus => ?_
    exact hus.within fun vs t d hd => .of_derives (Chain.derives_operand hd)
  · obtain ⟨ts, d, hc, hd, -⟩ := operand_sound (fun r _ _ _ hs => r.sound n hs) hs h₁
    refine (following_viable ih (hc.legible hs) h).within hc.rest_eq fun us hus => ?_
    exact hus ts d (Chain.derives_operand hd)

private theorem after_viable (c : Chain) (left : Expr) (hs : Legible s)
    (h : (c.after left).readWithin (n + 1) s = .error (.fault f) s') :
    Stuck s f s' fun us => ∀ ts d, Derives c.level ts left d → Starts c.level (ts ++ us) := by
  obtain ⟨o, r, hr⟩ := hs.ready.exists_cons
  rw [c.readWithin_after, current_bind hr] at h
  cases ho : c.operator? o.lexeme with
  | none =>
    simp only [ho] at h
    cases h
  | some op =>
    simp only [ho] at h
    obtain ⟨hc₁, h⟩ := skip_bind_eq_error hs.ready hr (Chain.ne_eof_of_operator? ho) h
    rcases bind_eq_error h with h | ⟨right, s₂, h₂, h⟩
    · refine (operand_viable ih (hc₁.legible hs) h).within hc₁.rest_eq fun us hus ts d hd => ?_
      rw [← List.append_assoc]
      refine hus.within fun vs t e hvs => ?_
      have hjoined := Starts.of_derives (Chain.derives_operator ho hd hvs)
      simpa using hjoined
    · obtain ⟨vs, e, hc₂, hright, -⟩ :=
        operand_sound (fun r _ _ _ hs => r.sound n hs) (hc₁.legible hs) h₂
      rcases bind_eq_error h with h | ⟨joined, s₃, h₃, h⟩
      · exact absurd h (allocate_ne_fault _)
      · obtain ⟨rfl, hc₃⟩ := allocate_eq_ok hc₂.ready h₃
        have hc := (hc₁.trans hc₂).trans hc₃
        refine (following_viable ih (hc.legible hs) h).within hc.rest_eq fun us hus ts d hd => ?_
        simpa using hus _ _ (Chain.derives_operator ho hd hright)

omit ih in
/-- Signs that were read before a level that is one too many start a signed operand. -/
private theorem signs_viable {m : Nat} {read : List (Sign × Span)} (hs : Legible s)
    (h : signs m read s = .error (.fault f) s') : Stuck s f s' (Starts .signed) := by
  induction m generalizing read s with
  | zero => cases h
  | succ m ih =>
    obtain ⟨t, r, hr⟩ := hs.ready.exists_cons
    rw [signs, current_bind hr] at h
    cases ho : signOf? t.lexeme with
    | none =>
      simp only [ho] at h
      cases h
    | some sg =>
      simp only [ho] at h
      rcases enter_bind_eq_error hs.ready h with ⟨hd, h⟩ | ⟨hrest, hjust⟩
      · have hne := ne_eof_of_signOf? ho
        have hc := Consumes.one hs.ready hr hne
        obtain ⟨⟨u, v, rfl⟩, -⟩ := hs.ready.after_one hr hne
        rw [advance_bind (show (s.nested 1).rest = t :: u :: v from hr), State.nested_after] at h
        refine (ih ((hc.legible hs).nested hd) h).within hc.rest_eq fun us hus => ?_
        exact hus.within fun vs x d hvs => .of_derives (.sign (signOf?_eq_some_iff.mp ho) hvs)
      · exact .here hrest (starts_nil (by simp)) hjust

private theorem signed_viable (hs : Legible s) : Rule.signed.Viable (n + 1) s f s' := by
  intro h
  rw [Rule.readWithin] at h
  rcases bind_eq_error h with h | ⟨read, s₁, h₁, h⟩
  · exact signs_viable hs h
  · obtain ⟨us, new, s₂, hread, rfl, hc, hle, hder⟩ := signs_sound hs h₁
    have hs₂ : Legible (s₂.nested new.length) :=
      ⟨hc.ready, (hc.legible hs).named, by
        simp only [State.depth_nested, State.limit_nested, hc.depth_eq, hc.limit_eq]
        exact hle⟩
    rcases bind_eq_error h with h | ⟨e, s₃, -, h⟩
    · refine (ih .power _ f s' hs₂ h).within hc.rest_eq fun vs hvs => ?_
      exact hvs.within fun ws t d hd => .of_derives (hder ws t d (.power hd))
    · rcases bind_eq_error h with h | ⟨x, s₄, -, h⟩
      · exact absurd h (underSigns_ne_fault _ _)
      · cases h

private theorem power_viable (hs : Legible s) : Rule.power.Viable (n + 1) s f s' := by
  intro h
  rw [Rule.readWithin] at h
  rcases bind_eq_error h with h | ⟨base, s₁, h₁, h⟩
  · refine (ih .primary s f s' hs h).within (List.nil_append _).symm fun us hus => ?_
    exact hus.within fun vs t d hd => .of_derives (.primary hd)
  · obtain ⟨ts, d, hc₁, hbase, -⟩ := Rule.sound n .primary hs h₁
    have hs₁ := hc₁.legible hs
    obtain ⟨o, r, hr⟩ := hs₁.ready.exists_cons
    rw [current_bind hr] at h
    by_cases ho : o.lexeme = .power
    · simp only [ho, ne_eq, not_true_eq_false, ite_false] at h
      obtain ⟨hc₂, h⟩ := skip_bind_eq_error hs₁.ready hr (by simp [ho]) h
      have hc := hc₁.trans hc₂
      have hraise : ∀ us, Starts .signed us → Starts .power (ts ++ [o] ++ us) := by
        refine fun us hus => hus.within fun vs x e hx => ?_
        have hpower := Starts.of_derives (Derives.raise ho hbase hx)
        simpa using hpower
      rcases enter_bind_eq_error hc₂.ready h with ⟨hd, h⟩ | ⟨hrest, hjust⟩
      · rcases bind_eq_error h with h | ⟨x, s₃, h₃, h⟩
        · have hs₂ := (hc.legible hs).nested hd
          exact (ih .signed _ f s' hs₂ h).within hc.rest_eq hraise
        · rcases bind_eq_error h with h | ⟨-, s₄, -, h⟩
          · cases h
          · exact absurd h (allocate_ne_fault _)
      · exact (Stuck.here hrest (starts_nil (by simp)) hjust).within hc.rest_eq hraise
    · simp only [ho, ne_eq, not_false_eq_true, ite_true] at h
      cases h

private theorem group_viable (hs : Legible s) : Rule.group.Viable (n + 1) s f s' := by
  intro lp r hr hlp h
  rw [Rule.readWithin] at h
  obtain ⟨hc₁, h⟩ := skip_bind_eq_error hs.ready hr (by simp [hlp]) h
  have hgroup : ∀ us, Starts .sum us → Starts .primary ([lp] ++ us) := by
    refine fun us hus => hus.within fun vs t d ht => ⟨[closing], t, d + 1, ?_⟩
    exact .group hlp rfl ht
  rcases enter_bind_eq_error hc₁.ready h with ⟨hd, h⟩ | ⟨hrest, hjust⟩
  · have hs₁ := (hc₁.legible hs).nested hd
    rcases bind_eq_error h with h | ⟨e, s₂, h₂, h⟩
    · exact (ih .sum _ f s' hs₁ h).within hc₁.rest_eq hgroup
    · obtain ⟨ts, d, hc₂, hder, -⟩ := Rule.sound n .sum hs₁ h₂
      obtain ⟨s₃, rfl, hc₃⟩ := hc₂.of_nested
      rcases close_bind_eq_error hc₃.ready h with ⟨hrest, hjust⟩ | ⟨s₄, h⟩
      · exact (hc₃.stuck hder hrest hjust).within hc₁.rest_eq hgroup
      · cases h
  · exact (Stuck.here hrest (starts_nil (by simp)) hjust).within hc₁.rest_eq hgroup

private theorem primary_viable (hs : Legible s) : Rule.primary.Viable (n + 1) s f s' := by
  intro h
  obtain ⟨o, r, hr⟩ := hs.ready.exists_cons
  rw [Rule.readWithin, current_bind hr] at h
  cases ho : o.lexeme with
  | number v =>
    simp only [ho] at h
    obtain ⟨-, h⟩ := skip_bind_eq_error hs.ready hr (by simp [ho]) h
    cases v with
    | none => cases h
    | some v => exact absurd h (allocate_ne_fault _)
  | lparen =>
    simp only [ho] at h
    exact ih .group s f s' hs o r hr ho h
  | identifier m =>
    simp only [ho] at h
    obtain ⟨⟨u, v, rfl⟩, -⟩ := hs.ready.after_one hr (by simp [ho])
    rw [peek_bind hr] at h
    by_cases hu : u.lexeme = .lparen
    · simp only [hu, ite_true] at h
      exact ih .call s f s' hs o u v hr hu ⟨m, ho⟩ h
    · simp only [hu, ite_false] at h
      obtain ⟨-, h⟩ := skip_bind_eq_error hs.ready hr (by simp [ho]) h
      exact absurd h (allocate_ne_fault _)
  | _ =>
    simp only [ho, reject_eq hr] at h
    cases h
    refine .here rfl (starts_nil (by simp)) (justified_of_ne fun l name hcause => ?_)
    exact primaryWanted_ne name (Cause.expectedPrimary.inj hcause).2

private theorem call_viable (hs : Legible s) : Rule.call.Viable (n + 1) s f s' := by
  intro m lp r hr hlp ⟨x, hx⟩ h
  obtain ⟨name, rfl⟩ := Option.ne_none_iff_exists'.mp
    fun hnone => hs.named m (by simp [hr]) (hnone ▸ hx)
  rw [Rule.readWithin, current_bind hr] at h
  simp only [Token.name?, hx, Option.getD_some] at h
  cases hg : Function.ofName? name with
  | none =>
    simp only [hg, reject_eq hr] at h
    cases h
    refine .here rfl (starts_nil (by simp)) fun _ _ _ => ?_
    exact ⟨m, lp, r, name, hr, hx, hlp, hg, rfl⟩
  | some g =>
    simp only [hg] at h
    obtain rfl := Function.name_of_ofName? hg
    obtain ⟨hc₁, h⟩ := skip_bind_eq_error hs.ready hr (by simp [hx]) h
    obtain ⟨hc₂, h⟩ := skip_bind_eq_error hc₁.ready (show (s.after 1 0).rest = lp :: r by simp [hr])
      (by simp [hlp]) h
    have hc := hc₁.trans hc₂
    rcases enter_bind_eq_error hc.ready h with ⟨hd, h⟩ | ⟨hrest, hjust⟩
    · obtain ⟨u, v, hu⟩ := hc.ready.exists_cons
      rw [current_bind (show (((s.after 1 0).after 1 0).nested 1).rest = u :: v from hu)] at h
      by_cases hrp : u.lexeme = .rparen
      · simp only [hrp, ite_true] at h
        obtain ⟨⟨w, ws, rfl⟩, -⟩ := hc.ready.after_one hu (by simp [hrp])
        rw [close_bind hu hrp] at h
        exact absurd h (allocate_ne_fault _)
      · simp only [hrp, ite_false] at h
        refine (ih (.arguments g m.span []) _ f s' (hc.legible hs) hd h).within hc.rest_eq
          fun us hus => ?_
        exact hus [m, lp] fun us t d ht => ⟨d + 1, .argument hx hlp ht⟩
    · have hcall : Starts .primary [m, lp] := ⟨[closing], _, _, .callEmpty hx hlp rfl⟩
      refine (Stuck.here (p := fun us => Starts .primary ([m, lp] ++ us)) hrest hcall hjust).within
        hc.rest_eq fun us hus => hus

private theorem arguments_viable (g : Function) (span : Span) (read : List Expr)
    (hs : Legible s) : (Rule.arguments g span read).Viable (n + 1) s f s' := by
  intro hd h
  have hargument : ∀ us before, Opens g span read.reverse before → Starts .sum us →
      Starts .primary (before ++ us) := by
    refine fun us before hopens hus => hus.within fun vs t d ht => ?_
    obtain ⟨e, he⟩ := hopens vs t d ht
    exact ⟨[closing], _, _, .call rfl he⟩
  rw [Rule.readWithin] at h
  rcases bind_eq_error h with h | ⟨e, s₁, h₁, h⟩
  · refine (ih .sum _ f s' (hs.nested hd) h).within (s := s) (List.nil_append _).symm
      fun us hus before hopens => ?_
    exact hargument us before hopens hus
  · obtain ⟨ts, d, hc₁, he, -⟩ := Rule.sound n .sum (hs.nested hd) h₁
    obtain ⟨s₂, rfl, hc₂⟩ := hc₁.of_nested
    obtain ⟨c, r, hr⟩ := hc₂.ready.exists_cons
    rw [current_bind (show (s₂.nested 1).rest = c :: r from hr)] at h
    by_cases hcomma : c.lexeme = .comma
    · simp only [hcomma, ite_true] at h
      obtain ⟨hc₃, h⟩ := skip_bind_eq_error (hc₂.ready.nested 1) hr (by simp [hcomma]) h
      obtain ⟨s₃, hs₃, hc₃⟩ := hc₃.of_nested
      rw [hs₃] at h
      have hc := hc₂.trans hc₃
      have hdepth : s₃.depth < s₃.limit := by
        rw [hc.depth_eq, hc.limit_eq]
        exact hd
      refine (ih (.arguments g span (e :: read)) s₃ f s' (hc.legible hs) hdepth h).within
        hc.rest_eq fun us hus before hopens => ?_
      obtain ⟨m, hm⟩ := hopens ts e d he
      have hnext : Opens g span (e :: read).reverse (before ++ (ts ++ [c])) := by
        intro us t d' ht
        refine ⟨max m (d' + 1), ?_⟩
        simpa using Derives.comma hcomma hm ht
      simpa using hus _ hnext
    · simp only [hcomma, ite_false] at h
      rcases close_bind_eq_error hc₂.ready h with ⟨hrest, hjust⟩ | ⟨s₃, h⟩
      · exact (hc₂.stuck he hrest hjust).within (s := s) (List.nil_append _).symm
          fun us hus before hopens => hargument us before hopens hus
      · exact absurd h (allocate_ne_fault _)

end Rules

/-- Where a rule stops at a fault in a legible state, what was passed over can be completed. -/
theorem Rule.viable (n : Nat) (r : Rule) {s s' : State} {f : Fault} (hs : Legible s) :
    r.Viable n s f s' := by
  induction n generalizing r s s' f with
  | zero => cases r <;> simp [Rule.Viable, Rule.readWithin_zero]
  | succ n ih =>
    have ih' : ∀ (r : Rule) (s : State) (f : Fault) (s' : State), Legible s →
        r.Viable n s f s' := fun r _ _ _ hs => ih r hs
    cases r with
    | sum => exact rule_viable ih' .sum hs
    | sumAfter left => exact after_viable ih' .sum left hs
    | product => exact rule_viable ih' .product hs
    | productAfter left => exact after_viable ih' .product left hs
    | signed => exact signed_viable ih' hs
    | power => exact power_viable ih' hs
    | primary => exact primary_viable ih' hs
    | group => exact group_viable ih' hs
    | call => exact call_viable ih' hs
    | arguments g span read => exact arguments_viable ih' g span read hs

end Reckoner.Parser
