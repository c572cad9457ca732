import Reckoner.Proofs.Parsing.Chains

/-!
# What is read can be derived

If reading what a rule describes succeeds, the tokens from the cursor up to where it then stands
make up the expression that was read, and the nesting of that derivation fits between the depth
and the limit. What follows a first part is stated for every derivation of that part, so that the
loops over operators and arguments follow from their steps. The nodes that were counted are those
of the expression.
-/

namespace Reckoner.Parser

/-- The cursor passed over some tokens, nodes were counted, and nothing else changed. -/
structure Consumes (s : State) (ts : List Token) (nodes : Nat) (s' : State) : Prop where
  /-- What remained is what was passed over and what remains. -/
  rest_eq : s.rest = ts ++ s'.rest
  /-- The state afterwards. -/
  eq_after : s' = s.after ts.length nodes
  /-- The cursor stands on a token again. -/
  ready : s'.Ready

/-- A state from which a success says something about the tokens: the cursor stands on a token of a
terminated sequence, names carry their text, and the depth is within the limit. -/
structure Legible (s : State) : Prop where
  /-- The cursor stands on a token. -/
  ready : s.Ready
  /-- Names carry their text. -/
  named : ∀ t ∈ s.rest, t.lexeme ≠ .identifier none
  /-- The depth is within the limit. -/
  depth_le : s.depth ≤ s.limit

section Consumption

variable {β : Type} {s s₁ s' : State} {ts us : List Token} {k n : Nat} {t : Token} {r : List Token}
  {b : β}

theorem Consumes.refl (hs : s.Ready) : Consumes s [] 0 s := ⟨rfl, rfl, hs⟩

theorem Consumes.trans (h : Consumes s ts k s₁) (h' : Consumes s₁ us n s') :
    Consumes s (ts ++ us) (k + n) s' := by
  obtain ⟨hr, rfl, _⟩ := h
  obtain ⟨hr', rfl, hs'⟩ := h'
  exact ⟨by rw [hr, hr', List.append_assoc], by simp, hs'⟩

/-- Open levels do not matter. -/
theorem Consumes.of_nested {d : Nat} (h : Consumes (s.nested d) ts k s') :
    ∃ s₁, s' = s₁.nested d ∧ Consumes s ts k s₁ := by
  obtain ⟨hr, rfl, hs⟩ := h
  exact ⟨s.after ts.length k, rfl, hr, rfl, hs⟩

theorem Consumes.depth_eq (h : Consumes s ts k s') : s'.depth = s.depth := by
  rw [h.eq_after, State.depth_after]

theorem Consumes.limit_eq (h : Consumes s ts k s') : s'.limit = s.limit := by
  rw [h.eq_after, State.limit_after]

/-- Passing over tokens keeps a state legible. -/
theorem Consumes.legible (h : Consumes s ts k s') (hs : Legible s) : Legible s' := by
  refine ⟨h.ready, fun t ht => hs.named t ?_, ?_⟩
  · rw [h.rest_eq]
    exact List.mem_append_right _ ht
  · rw [h.depth_eq, h.limit_eq]
    exact hs.depth_le

/-- A level below the limit can be opened. -/
theorem Legible.nested (hs : Legible s) (hd : s.depth < s.limit) : Legible (s.nested 1) :=
  ⟨hs.ready, hs.named, by simp only [State.depth_nested, State.limit_nested]; omega⟩

/-- Passing over one token that does not end the input. -/
theorem Consumes.one (hs : s.Ready) (hr : s.rest = t :: r) (ht : t.lexeme ≠ .eof) :
    Consumes s [t] 0 (s.after 1 0) :=
  ⟨by simp [hr], rfl, (hs.after_one hr ht).2 0⟩

/-- Counting one node passes over no token. -/
theorem Consumes.node (hs : s.Ready) : Consumes s [] 1 (s.after 0 1) := ⟨rfl, rfl, hs⟩

theorem skip_bind_eq_ok {f : Unit → Parser β} (hs : s.Ready) (hr : s.rest = t :: r)
    (ht : t.lexeme ≠ .eof) (h : (discard advance >>= f) s = .ok b s') :
    Consumes s [t] 0 (s.after 1 0) ∧ f () (s.after 1 0) = .ok b s' := by
  refine ⟨.one hs hr ht, ?_⟩
  obtain ⟨⟨u, v, rfl⟩, -⟩ := hs.after_one hr ht
  rwa [skip_bind hr] at h

/-- A level was opened only below the limit. -/
theorem enter_bind_eq_ok {f : Unit → Parser β} (hs : s.Ready) (h : (enter >>= f) s = .ok b s') :
    s.depth < s.limit ∧ f () (s.nested 1) = .ok b s' := by
  obtain ⟨t, r, hr⟩ := hs.exists_cons
  by_cases hd : s.depth < s.limit
  · exact ⟨hd, by rwa [enter_bind hd] at h⟩
  · rw [enter_bind_of_le hr (by omega)] at h
    cases h

/-- A group or an argument list was closed only at a closing parenthesis. -/
theorem close_bind_eq_ok {f : Unit → Parser β} (hs : s.Ready)
    (h : (close >>= f) (s.nested 1) = .ok b s') :
    ∃ t, t.lexeme = .rparen ∧ Consumes s [t] 0 (s.after 1 0) ∧ f () (s.after 1 0) = .ok b s' := by
  obtain ⟨t, r, hr⟩ := hs.exists_cons
  by_cases ht : t.lexeme = .rparen
  · refine ⟨t, ht, .one hs hr (by simp [ht]), ?_⟩
    obtain ⟨⟨u, v, rfl⟩, -⟩ := hs.after_one hr (by simp [ht])
    rwa [close_bind hr ht] at h
  · rw [close_bind_of_ne hr ht] at h
    cases h

/-- A node that was counted is the one that was given. -/
theorem allocate_eq_ok {e e' : Expr} (hs : s.Ready) (h : allocate e s = .ok e' s') :
    e' = e ∧ Consumes s [] 1 s' := by
  cases hr : s.arena.released with
  | false =>
    rw [allocate_eq hr] at h
    cases h
    exact ⟨rfl, .node hs⟩
  | true =>
    rw [allocate_of_released hr] at h
    cases h

end Consumption

/-- An expression of a level was read, within the limit. -/
def Read (l : Level) (s : State) (t : Expr) (s' : State) : Prop :=
  ∃ ts d, Consumes s ts t.size s' ∧ Derives l ts t d ∧ s.depth + d ≤ s.limit

/-- What follows a first part of a level was read, within the limit if the first part is. -/
def ReadAfter (l : Level) (left : Expr) (s : State) (t : Expr) (s' : State) : Prop :=
  ∃ us k, Consumes s us k s' ∧ t.size = left.size + k ∧
    ∀ ts d, Derives l ts left d → s.depth + d ≤ s.limit →
      ∃ e, Derives l (ts ++ us) t e ∧ s.depth + e ≤ s.limit

/-- After these tokens a further argument makes an open call of it and the arguments before. -/
def OpensCall (s : State) (f : Function) (span : Span) (before : List Expr) (ts : List Token) :
    Prop :=
  ∀ us t d, Derives .sum us t d → s.depth + (d + 1) ≤ s.limit →
    ∃ e, Derives .openCall (ts ++ us) (.call f (before ++ [t]) span) e ∧ s.depth + e ≤ s.limit

/-- What a success says about a rule: in the right place a group and a call are primaries, and the
rest of an argument list completes the call. -/
def Rule.Sound (n : Nat) (s : State) (t : Expr) (s' : State) : Rule → Prop
  | .sum => sum.readWithin n s = .ok t s' → Read .sum s t s'
  | .sumAfter left => (sumAfter left).readWithin n s = .ok t s' → ReadAfter .sum left s t s'
  | .product => product.readWithin n s = .ok t s' → Read .product s t s'
  | .productAfter left =>
    (productAfter left).readWithin n s = .ok t s' → ReadAfter .product left s t s'
  | .signed => signed.readWithin n s = .ok t s' → Read .signed s t s'
  | .power => power.readWithin n s = .ok t s' → Read .power s t s'
  | .primary => primary.readWithin n s = .ok t s' → Read .primary s t s'
  | .group => ∀ lp r, s.rest = lp :: r → lp.lexeme = .lparen →
    group.readWithin n s = .ok t s' → Read .primary s t s'
  | .call => ∀ m lp r, s.rest = m :: lp :: r → lp.lexeme = .lparen →
    (∃ x, m.lexeme = .identifier x) →
    call.readWithin n s = .ok t s' → Read .primary s t s'
  | .arguments f span read => s.depth < s.limit →
    (arguments f span read).readWithin n (s.nested 1) = .ok t s' →
    ∃ us k, Consumes s us k s' ∧ t.size = Expr.sizeAll read + k ∧
      ∀ ts, OpensCall s f span read.reverse ts →
        ∃ d, Derives .primary (ts ++ us) t d ∧ s.depth + d ≤ s.limit

/-- Signs that were read stand before any signed operand, and leave as many levels open. -/
theorem signs_sound {n : Nat} {read read' : List (Sign × Span)} {s s' : State}
    (hs : Legible s) (h : signs n read s = .ok read' s') :
    ∃ us new s₁, read' = new ++ read ∧ s' = s₁.nested new.length ∧ Consumes s us 0 s₁ ∧
      s.depth + new.length ≤ s.limit ∧
      ∀ ts t d, Derives .signed ts t d →
        Derives .signed (us ++ ts) (t.under new) (d + new.length) := by
  induction n generalizing read s with
  | zero => cases h
  | succ n ih =>
    obtain ⟨t, r, hr⟩ := hs.ready.exists_cons
    rw [signs, current_bind hr] at h
    cases ho : signOf? t.lexeme with
    | none =>
      simp only [ho] at h
      cases h
      exact ⟨[], [], s', rfl, by simp, .refl hs.ready, by simpa using hs.depth_le,
        fun ts t d hd => hd⟩
    | some sg =>
      simp only [ho] at h
      obtain ⟨hd, h⟩ := enter_bind_eq_ok hs.ready h
      have hne := ne_eof_of_signOf? ho
      have hc := Consumes.one hs.ready hr hne
      obtain ⟨⟨u, v, rfl⟩, -⟩ := hs.ready.after_one hr hne
      rw [advance_bind (show (s.nested 1).rest = t :: u :: v from hr), State.nested_after] at h
      obtain ⟨us, new, s₁, rfl, rfl, hc₁, hle, hder⟩ := ih ((hc.legible hs).nested hd) h
      obtain ⟨s₂, rfl, hc'⟩ := hc₁.of_nested
      refine ⟨t :: us, new ++ [(sg, t.span)], s₂, by simp, by simp [Nat.add_comm], hc.trans hc',
        ?_, fun ts e d hts => ?_⟩
      · simp only [State.depth_nested, State.depth_after, State.limit_nested, State.limit_after,
          List.length_append, List.length_singleton] at hle ⊢
        omega
      · have := Derives.sign (signOf?_eq_some_iff.mp ho) (hder ts e d hts)
        simpa [Expr.under_append, Expr.under, Nat.add_assoc] using this

private theorem underSigns_eq_ok {read : List (Sign × Span)} {e e' : Expr} {s s' : State}
    (hs : s.Ready) (h : underSigns read e s = .ok e' s') :
    e' = e.under read ∧ Consumes s [] read.length s' := by
  induction read generalizing e s with
  | nil =>
    cases h
    exact ⟨rfl, .refl hs⟩
  | cons p read ih =>
    obtain ⟨e₁, s₁, h₁, h⟩ := bind_eq_ok h
    obtain ⟨rfl, hc⟩ := allocate_eq_ok hs h₁
    obtain ⟨rfl, hc'⟩ := ih hc.ready h
    refine ⟨rfl, ?_⟩
    simpa [Nat.add_comm] using hc.trans hc'

section Rules

variable {n : Nat} {s s' : State} {t : Expr}
  (ih : ∀ (r : Rule) (s : State) (t : Expr) (s' : State), Legible s → r.Sound n s t s')

include ih

/-- An operand of a chain was read. -/
theorem operand_sound {c : Chain} (hs : Legible s)
    (h : c.operand.readWithin n s = .ok t s') :
    Read c.operandLevel s t s' := by
  cases c with
  | sum => exact ih .product s t s' hs h
  | product => exact ih .signed s t s' hs h

/-- What follows the first part of a chain was read. -/
private theorem following_sound {c : Chain} {left : Expr} (hs : Legible s)
    (h : (c.after left).readWithin n s = .ok t s') : ReadAfter c.level left s t s' := by
  cases c with
  | sum => exact ih (.sumAfter left) s t s' hs h
  | product => exact ih (.productAfter left) s t s' hs h

private theorem rule_sound (c : Chain) (hs : Legible s)
    (h : c.rule.readWithin (n + 1) s = .ok t s') : Read c.level s t s' := by
  rw [c.readWithin_rule] at h
  obtain ⟨left, s₁, h₁, h₂⟩ := bind_eq_ok h
  obtain ⟨ts, d, hc, hd, hle⟩ := operand_sound ih hs h₁
  obtain ⟨us, k, hc', hsize, hafter⟩ := following_sound ih (hc.legible hs) h₂
  rw [hc.depth_eq, hc.limit_eq] at hafter
  obtain ⟨e, he, hle'⟩ := hafter ts d (Chain.derives_operand hd) hle
  exact ⟨ts ++ us, e, hsize ▸ hc.trans hc', he, hle'⟩

private theorem after_sound (c : Chain) (left : Expr) (hs : Legible s)
    (h : (c.after left).readWithin (n + 1) s = .ok t s') : ReadAfter c.level left s t s' := by
  obtain ⟨o, r, hr⟩ := hs.ready.exists_cons
  rw [c.readWithin_after, current_bind hr] at h
  cases ho : c.operator? o.lexeme with
  | none =>
    simp only [ho] at h
    cases h
    exact ⟨[], 0, .refl hs.ready, rfl, fun ts d hd hle => ⟨d, by simpa using hd, hle⟩⟩
  | some op =>
    simp only [ho] at h
    obtain ⟨hc₁, h⟩ := skip_bind_eq_ok hs.ready hr (Chain.ne_eof_of_operator? ho) h
    obtain ⟨right, s₂, h₂, h⟩ := bind_eq_ok h
    obtain ⟨us, e, hc₂, hright, hle⟩ := operand_sound ih (hc₁.legible hs) h₂
    obtain ⟨joined, s₃, h₃, h⟩ := bind_eq_ok h
    obtain ⟨rfl, hc₃⟩ := allocate_eq_ok hc₂.ready h₃
    have hc := (hc₁.trans hc₂).trans hc₃
    obtain ⟨vs, k, hc₄, hsize, hafter⟩ := following_sound ih (hc.legible hs) h
    refine ⟨o :: us ++ vs, right.size + 1 + k, by simpa using hc.trans hc₄, ?_,
      fun ts d hd hle' => ?_⟩
    · rw [hsize, Expr.size]
      omega
    · rw [hc.depth_eq, hc.limit_eq] at hafter
      have hjoined := Chain.derives_operator ho hd hright
      have hnesting : s.depth + ↑(max d e) ≤ s.limit := by
        simp only [State.depth_after, State.limit_after] at hle
        omega
      obtain ⟨m, hm, hlem⟩ := hafter (ts ++ o :: us) (max d e) hjoined hnesting
      exact ⟨m, by simpa using hm, hlem⟩

private theorem signed_sound (hs : Legible s) : Rule.signed.Sound (n + 1) s t s' := by
  intro h
  rw [Rule.readWithin] at h
  obtain ⟨read, s₁, h₁, h⟩ := bind_eq_ok h
  obtain ⟨us, new, s₂, hread, rfl, hc, hle, hder⟩ := signs_sound hs h₁
  obtain rfl : read = new := by simpa using hread
  obtain ⟨e, s₃, h₃, h⟩ := bind_eq_ok h
  have hs₂ : Legible (s₂.nested read.length) :=
    ⟨hc.ready, (hc.legible hs).named, by
      simp only [State.depth_nested, State.limit_nested, hc.depth_eq, hc.limit_eq]
      exact hle⟩
  obtain ⟨ts, d, hc₃, hd, hle₃⟩ := ih .power _ e s₃ hs₂ h₃
  obtain ⟨s₄, rfl, hc₄⟩ := hc₃.of_nested
  obtain ⟨e', s₅, h₅, h⟩ := bind_eq_ok h
  obtain ⟨rfl, hc₅⟩ := underSigns_eq_ok (hc₄.ready.nested _) h₅
  obtain ⟨s₆, rfl, hc₆⟩ := hc₅.of_nested
  rw [leave_bind] at h
  cases h
  refine ⟨us ++ ts, d + read.length, ?_, hder ts e d (.power hd), ?_⟩
  · simpa [Expr.size_under] using (hc.trans hc₄).trans hc₆
  · simp only [State.depth_nested, State.limit_nested, hc.depth_eq, hc.limit_eq] at hle₃
    omega

private theorem power_sound (hs : Legible s) : Rule.power.Sound (n + 1) s t s' := by
  intro h
  rw [Rule.readWithin] at h
  obtain ⟨base, s₁, h₁, h⟩ := bind_eq_ok h
  obtain ⟨ts, d, hc₁, hbase, hle₁⟩ := ih .primary s base s₁ hs h₁
  have hs₁ := hc₁.legible hs
  obtain ⟨o, r, hr⟩ := hs₁.ready.exists_cons
  rw [current_bind hr] at h
  by_cases ho : o.lexeme = .power
  · simp only [ho, ne_eq, not_true_eq_false, ite_false] at h
    obtain ⟨hc₂, h⟩ := skip_bind_eq_ok hs₁.ready hr (by simp [ho]) h
    obtain ⟨hd, h⟩ := enter_bind_eq_ok hc₂.ready h
    obtain ⟨x, s₃, h₃, h⟩ := bind_eq_ok h
    obtain ⟨us, e, hc₃, hx, hle₃⟩ := ih .signed _ x s₃ ((hc₂.legible hs₁).nested hd) h₃
    obtain ⟨s₄, rfl, hc₄⟩ := hc₃.of_nested
    rw [leave_bind] at h
    obtain ⟨rfl, hc₅⟩ := allocate_eq_ok hc₄.ready h
    refine ⟨ts ++ o :: us, max d (e + 1), ?_, .raise ho hbase hx, ?_⟩
    · have := hc₁.trans (hc₂.trans (hc₄.trans hc₅))
      simpa [Expr.size, Nat.add_comm, Nat.add_left_comm, Nat.add_assoc] using this
    · simp only [State.depth_nested, State.depth_after, State.limit_nested, State.limit_after,
        hc₁.depth_eq, hc₁.limit_eq] at hle₃
      omega
  · simp only [ho, ne_eq, not_false_eq_true, ite_true] at h
    cases h
    exact ⟨ts, d, hc₁, .primary hbase, hle₁⟩

private theorem group_sound (hs : Legible s) : Rule.group.Sound (n + 1) s t s' := by
  intro lp r hr hlp h
  rw [Rule.readWithin] at h
  obtain ⟨hc₁, h⟩ := skip_bind_eq_ok hs.ready hr (by simp [hlp]) h
  obtain ⟨hd, h⟩ := enter_bind_eq_ok hc₁.ready h
  obtain ⟨e, s₂, h₂, h⟩ := bind_eq_ok h
  obtain ⟨ts, d, hc₂, hder, hle⟩ := ih .sum _ e s₂ ((hc₁.legible hs).nested hd) h₂
  obtain ⟨s₃, rfl, hc₃⟩ := hc₂.of_nested
  obtain ⟨rp, hrp, hc₄, h⟩ := close_bind_eq_ok hc₃.ready h
  cases h
  refine ⟨lp :: ts ++ [rp], d + 1, by simpa using hc₁.trans (hc₃.trans hc₄),
    .group hlp hrp hder, ?_⟩
  simp only [State.depth_nested, State.depth_after, State.limit_nested, State.limit_after] at hle
  omega

private theorem primary_sound (hs : Legible s) : Rule.primary.Sound (n + 1) s t s' := by
  intro h
  obtain ⟨o, r, hr⟩ := hs.ready.exists_cons
  rw [Rule.readWithin, current_bind hr] at h
  cases ho : o.lexeme with
  | number v =>
    simp only [ho] at h
    obtain ⟨hc, h⟩ := skip_bind_eq_ok hs.ready hr (by simp [ho]) h
    cases v with
    | none => cases h
    | some v =>
      obtain ⟨rfl, hc'⟩ := allocate_eq_ok hc.ready h
      exact ⟨[o], 0, hc.trans hc', .number ho, by simpa using hs.depth_le⟩
  | lparen =>
    simp only [ho] at h
    exact ih .group s t s' hs o r hr ho h
  | identifier m =>
    simp only [ho] at h
    obtain ⟨⟨u, v, rfl⟩, -⟩ := hs.ready.after_one hr (by simp [ho])
    rw [peek_bind hr] at h
    by_cases hu : u.lexeme = .lparen
    · simp only [hu, ite_true] at h
      exact ih .call s t s' hs o u v hr hu ⟨m, ho⟩ h
    · simp only [hu, ite_false] at h
      obtain ⟨hc, h⟩ := skip_bind_eq_ok hs.ready hr (by simp [ho]) h
      obtain ⟨rfl, hc'⟩ := allocate_eq_ok hc.ready h
      cases m with
      | none => exact absurd ho (hs.named o (by simp [hr]))
      | some m => exact ⟨[o], 0, hc.trans hc', .name ho, by simpa using hs.depth_le⟩
  | _ =>
    simp only [ho, reject_eq hr] at h
    cases h

private theorem call_sound (hs : Legible s) : Rule.call.Sound (n + 1) s t s' := by
  intro m lp r hr hlp ⟨x, hx⟩ h
  obtain ⟨name, rfl⟩ := Option.ne_none_iff_exists'.mp
    fun hnone => hs.named m (by simp [hr]) (hnone ▸ hx)
  rw [Rule.readWithin, current_bind hr] at h
  simp only [Token.name?, hx, Option.getD_some] at h
  cases hf : Function.ofName? name with
  | none =>
    simp only [hf, reject_eq hr] at h
    cases h
  | some f =>
    simp only [hf] at h
    obtain rfl := Function.name_of_ofName? hf
    obtain ⟨hc₁, h⟩ := skip_bind_eq_ok hs.ready hr (by simp [hx]) h
    obtain ⟨hc₂, h⟩ := skip_bind_eq_ok hc₁.ready (show (s.after 1 0).rest = lp :: r by simp [hr])
      (by simp [hlp]) h
    have hc := hc₁.trans hc₂
    obtain ⟨hd, h⟩ := enter_bind_eq_ok hc.ready h
    obtain ⟨u, v, hu⟩ := hc.ready.exists_cons
    rw [current_bind (show (((s.after 1 0).after 1 0).nested 1).rest = u :: v from hu)] at h
    by_cases hrp : u.lexeme = .rparen
    · simp only [hrp, ite_true] at h
      obtain ⟨rp, hrp, hc₃, h⟩ := close_bind_eq_ok hc.ready h
      obtain ⟨rfl, hc₄⟩ := allocate_eq_ok hc₃.ready h
      refine ⟨[m, lp, rp], 1, ?_, .callEmpty hx hlp hrp, ?_⟩
      · simpa [Expr.size, Expr.sizeAll] using hc.trans (hc₃.trans hc₄)
      simp only [State.depth_after, State.limit_after] at hd
      omega
    · simp only [hrp, ite_false] at h
      obtain ⟨us, k, hc₃, hsize, hder⟩ :=
        ih (.arguments f m.span []) _ t s' (hc.legible hs) hd h
      obtain ⟨d, hd', hle⟩ := hder [m, lp] fun us t d ht hle => ⟨d + 1, .argument hx hlp ht, hle⟩
      refine ⟨m :: lp :: us, d, ?_, hd', hle⟩
      rw [hsize]
      simpa [Expr.sizeAll] using hc.trans hc₃

private theorem arguments_sound (f : Function) (span : Span) (read : List Expr) (hs : Legible s) :
    (Rule.arguments f span read).Sound (n + 1) s t s' := by
  intro hd h
  rw [Rule.readWithin] at h
  obtain ⟨e, s₁, h₁, h⟩ := bind_eq_ok h
  obtain ⟨ts, d, hc₁, he, hle⟩ := ih .sum _ e s₁ (hs.nested hd) h₁
  obtain ⟨s₂, rfl, hc₂⟩ := hc₁.of_nested
  have hle' : s.depth + (d + 1) ≤ s.limit := by
    simp only [State.depth_nested, State.limit_nested] at hle
    omega
  obtain ⟨c, r, hr⟩ := hc₂.ready.exists_cons
  rw [current_bind (show (s₂.nested 1).rest = c :: r from hr)] at h
  by_cases hcomma : c.lexeme = .comma
  · simp only [hcomma, ite_true] at h
    obtain ⟨hc₃, h⟩ := skip_bind_eq_ok (hc₂.ready.nested 1) hr (by simp [hcomma]) h
    obtain ⟨s₃, hs₃, hc₃⟩ := hc₃.of_nested
    rw [hs₃] at h
    have hc := hc₂.trans hc₃
    obtain ⟨us, k, hc₄, hsize, hder⟩ := ih (.arguments f span (e :: read)) s₃ t s'
      (hc.legible hs) (by rw [hc.depth_eq, hc.limit_eq]; exact hd) h
    refine ⟨ts ++ c :: us, e.size + k, by simpa using hc.trans hc₄, ?_, fun before hopens => ?_⟩
    · rw [hsize, Expr.sizeAll]
      omega
    · obtain ⟨m, hm, hlem⟩ := hopens ts e d he hle'
      obtain ⟨m', hm', hlem'⟩ := hder (before ++ ts ++ [c]) fun us t d' ht hlet => by
        rw [hc.depth_eq, hc.limit_eq] at hlet
        refine ⟨max m (d' + 1), ?_, by rw [hc.depth_eq, hc.limit_eq]; omega⟩
        simpa using Derives.comma hcomma hm ht
      refine ⟨m', by simpa using hm', ?_⟩
      rwa [hc.depth_eq, hc.limit_eq] at hlem'
  · simp only [hcomma, ite_false] at h
    obtain ⟨rp, hrp, hc₃, h⟩ := close_bind_eq_ok hc₂.ready h
    obtain ⟨rfl, hc₄⟩ := allocate_eq_ok hc₃.ready h
    refine ⟨ts ++ [rp], e.size + 1, by simpa using hc₂.trans (hc₃.trans hc₄), ?_,
      fun before hopens => ?_⟩
    · rw [Expr.size, List.reverse_cons, Expr.sizeAll_append, Expr.sizeAll_reverse]
      simp only [Expr.sizeAll]
      omega
    · obtain ⟨m, hm, hlem⟩ := hopens ts e d he hle'
      exact ⟨m, by simpa using Derives.call hrp hm, hlem⟩

end Rules

/-- Whatever a rule reads from a legible state can be derived. -/
theorem Rule.sound (n : Nat) (r : Rule) {s s' : State} {t : Expr} (hs : Legible s) :
    r.Sound n s t s' := by
  induction n generalizing r s s' t with
  | zero => cases r <;> simp [Rule.Sound, Rule.readWithin_zero]
  | succ n ih =>
    have ih' : ∀ (r : Rule) (s : State) (t : Expr) (s' : State), Legible s → r.Sound n s t s' :=
      fun r _ _ _ hs => ih r hs
    cases r with
    | sum => exact rule_sound ih' .sum hs
    | sumAfter left => exact after_sound ih' .sum left hs
    | product => exact rule_sound ih' .product hs
    | productAfter left => exact after_sound ih' .product left hs
    | signed => exact signed_sound ih' hs
    | power => exact power_sound ih' hs
    | primary => exact primary_sound ih' hs
    | group => exact group_sound ih' hs
    | call => exact call_sound ih' hs
    | arguments f span read => exact arguments_sound ih' f span read hs

end Reckoner.Parser
