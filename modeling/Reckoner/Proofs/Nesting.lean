import Reckoner.Proofs.Grammar

/-!
# What is open between tokens

How deep the tokens of an expression nest can be told from left to right, without its derivation. A
sign where an operand is awaited opens a level, and so do a power sign and an opening parenthesis.
Signs and exponents stay open up to the next operator of a sum or a product, comma or closing
parenthesis, which ends the power that they belong to, and parentheses until they are closed. The
largest number of levels that are open at one place is the nesting of the derivation.
-/

namespace Reckoner

/-- What opens a level. -/
inductive Opening where
  /-- A sign before an operand. -/
  | sign
  /-- An exponent. -/
  | exponent
  /-- A group or an argument list. -/
  | bracket
  deriving DecidableEq

/-- Where a reader of tokens stands. -/
structure Standing where
  /-- What is open, the innermost first. -/
  opened : List Opening
  /-- Whether an operand is awaited. -/
  awaits : Bool
  deriving DecidableEq

namespace Standing

/-- Nothing is open at first, and an operand is awaited. -/
def start : Standing := ⟨[], true⟩

/-- What stays open where a power ends: the signs and exponents that it ends are closed. -/
def kept (opened : List Opening) : List Opening := opened.dropWhile (· ≠ .bracket)

/-- Where a reader stands after one more lexeme. -/
def read (a : Standing) : Lexeme → Standing
  | .number _ | .identifier _ => ⟨a.opened, false⟩
  | .lparen => ⟨.bracket :: a.opened, true⟩
  | .power => ⟨.exponent :: a.opened, true⟩
  | .plus | .minus => if a.awaits then ⟨.sign :: a.opened, true⟩ else ⟨kept a.opened, true⟩
  | .times | .divide | .modulo | .comma => ⟨kept a.opened, true⟩
  | .rparen => ⟨(kept a.opened).tail, false⟩
  | .eof => a

/-- Where a reader stands after some more tokens. -/
def reads (a : Standing) (ts : List Token) : Standing := ts.foldl (fun a t => a.read t.lexeme) a

/-- The number of levels that are open. -/
def depth (a : Standing) : Nat := a.opened.length

/-- The largest number of levels that are open before, between and after some more tokens. -/
def peak (a : Standing) : List Token → Nat
  | [] => a.depth
  | t :: ts => max a.depth ((a.read t.lexeme).peak ts)

end Standing

/-- The number of levels that are open after some tokens. -/
def levelsAfter (ts : List Token) : Nat := (Standing.start.reads ts).depth

/-- The largest number of levels that are open at one place in some tokens. -/
def nesting (ts : List Token) : Nat := Standing.start.peak ts

namespace Standing

variable {a : Standing} {inner outer : List Opening}

@[simp] theorem reads_nil (a : Standing) : a.reads [] = a := rfl

@[simp] theorem reads_cons (a : Standing) (t : Token) (ts : List Token) :
    a.reads (t :: ts) = (a.read t.lexeme).reads ts := rfl

@[simp] theorem reads_append (a : Standing) (ts us : List Token) :
    a.reads (ts ++ us) = (a.reads ts).reads us := List.foldl_append

/-- The levels that are open at first count. -/
theorem depth_le_peak (a : Standing) (ts : List Token) : a.depth ≤ a.peak ts := by
  cases ts with
  | nil => exact Nat.le_refl _
  | cons t ts => exact Nat.le_max_left _ _

/-- The levels that are open at last count. -/
theorem depth_reads_le_peak (a : Standing) (ts : List Token) : (a.reads ts).depth ≤ a.peak ts := by
  induction ts generalizing a with
  | nil => exact Nat.le_refl _
  | cons t ts ih => exact Nat.le_trans (ih _) (Nat.le_max_right _ _)

/-- The peak of tokens in two parts is that of one of the parts. -/
theorem peak_append (a : Standing) (ts us : List Token) :
    a.peak (ts ++ us) = max (a.peak ts) ((a.reads ts).peak us) := by
  induction ts generalizing a with
  | nil =>
    have hle := a.depth_le_peak us
    simp only [List.nil_append, reads_nil, peak]
    omega
  | cons t ts ih => simp only [List.cons_append, peak, ih, reads_cons, Nat.max_assoc]

/-- A token between two parts can be counted with the second one. -/
theorem peak_append_cons (a : Standing) (ts us : List Token) (t : Token) :
    a.peak (ts ++ t :: us) = max (a.peak ts) (((a.reads ts).read t.lexeme).peak us) := by
  have hle := a.depth_reads_le_peak ts
  rw [peak_append, peak]
  omega

/-- No group or argument list is among what is open. -/
def IsInner (inner : List Opening) : Prop := ∀ x ∈ inner, x ≠ .bracket

/-- What is open around a sum: nothing, or a group or an argument list innermost. -/
def IsOuter (outer : List Opening) : Prop := outer = [] ∨ ∃ rest, outer = .bracket :: rest

theorem isInner_nil : IsInner [] := by simp [IsInner]

/-- Any number of signs or of exponents is inner. -/
theorem isInner_replicate {x : Opening} (k : Nat) (hx : x ≠ .bracket) :
    IsInner (List.replicate k x) :=
  fun _ hy => (List.mem_replicate.mp hy).2 ▸ hx

theorem IsInner.append {more : List Opening} (h : IsInner inner) (h' : IsInner more) :
    IsInner (inner ++ more) :=
  fun x hx => (List.mem_append.mp hx).elim (h x) (h' x)

theorem isOuter_bracket (outer : List Opening) : IsOuter (.bracket :: outer) := .inr ⟨outer, rfl⟩

/-- A power ends all that is open in it, and nothing around the sum that it is in. -/
theorem kept_append (hinner : IsInner inner) (houter : IsOuter outer) :
    kept (inner ++ outer) = outer := by
  rw [kept, List.dropWhile_append_of_pos fun x hx => by simpa using hinner x hx]
  rcases houter with rfl | ⟨rest, rfl⟩ <;> simp

/-- An operator of a sum or a product, or a comma, behind an operand. -/
theorem read_behind {l : Lexeme} (h : l ∈ [.plus, .minus, .times, .divide, .modulo, .comma])
    (hinner : IsInner inner) (houter : IsOuter outer) :
    (⟨inner ++ outer, false⟩ : Standing).read l = ⟨outer, true⟩ := by
  have hkept := kept_append hinner houter
  simp only [List.mem_cons, List.not_mem_nil, or_false] at h
  rcases h with rfl | rfl | rfl | rfl | rfl | rfl <;> simp [read, hkept]

/-- A closing parenthesis closes all that was opened since the one that it closes. -/
theorem read_rparen {b : Bool} (hinner : IsInner inner) :
    (⟨inner ++ .bracket :: outer, b⟩ : Standing).read .rparen = ⟨outer, false⟩ := by
  rw [read, kept_append hinner (isOuter_bracket outer)]
  rfl

@[simp] theorem read_name (a : Standing) (n : Option String) :
    a.read (.identifier n) = ⟨a.opened, false⟩ := rfl

@[simp] theorem read_number (a : Standing) (v : Option Value) :
    a.read (.number v) = ⟨a.opened, false⟩ := rfl

@[simp] theorem read_lparen (a : Standing) : a.read .lparen = ⟨.bracket :: a.opened, true⟩ := rfl

@[simp] theorem read_power (a : Standing) : a.read .power = ⟨.exponent :: a.opened, true⟩ := rfl

/-- A sign where an operand is awaited. -/
theorem read_sign {l : Lexeme} (h : l = .plus ∨ l = .minus) :
    (⟨outer, true⟩ : Standing).read l = ⟨.sign :: outer, true⟩ := by
  rcases h with rfl | rfl <;> rfl

end Standing

open Standing

/-- Where a reader stands after an expression of a level that it has read with some levels open: in
a primary everything was closed, and else signs and exponents may still be open, and in an open call
its argument list is. -/
def Level.Leaves (outer : List Opening) (b : Standing) : Level → Prop
  | .primary => b = ⟨outer, false⟩
  | .openCall => ∃ inner, IsInner inner ∧ b = ⟨inner ++ .bracket :: outer, false⟩
  | _ => ∃ inner, IsInner inner ∧ b = ⟨inner ++ outer, false⟩

/-- The levels at which operators of sums or products may follow. -/
def Level.IsChain (l : Level) : Prop := l = .sum ∨ l = .product

namespace Derives

variable {l : Level} {ts us : List Token} {t : Expr} {o : Token} {d : Nat} {outer : List Opening}

/-- What is behind an operator is read as from where the operand before it was. -/
private theorem reads_operator {a : Standing} (us : List Token)
    (ho : o.lexeme ∈ [.plus, .minus, .times, .divide, .modulo, .comma])
    (houter : IsOuter outer) (h : ∃ inner, IsInner inner ∧ a.reads ts = ⟨inner ++ outer, false⟩) :
    a.reads (ts ++ o :: us) = (⟨outer, true⟩ : Standing).reads us ∧
      a.peak (ts ++ o :: us) = max (a.peak ts) ((⟨outer, true⟩ : Standing).peak us) := by
  obtain ⟨inner, hinner, hreads⟩ := h
  rw [reads_append, reads_cons, peak_append_cons, hreads, read_behind ho hinner houter]
  exact ⟨rfl, rfl⟩

/-- Reading an expression of a level leaves open what the level says, and the peak is by its nesting
above the levels that were open before. -/
theorem leaves (h : Derives l ts t d) (outer : List Opening) (houter : l.IsChain → IsOuter outer) :
    l.Leaves outer ((⟨outer, true⟩ : Standing).reads ts) ∧
      (⟨outer, true⟩ : Standing).peak ts = outer.length + d := by
  induction h generalizing outer with
  | product _ ih => exact ih outer fun _ => houter (.inl rfl)
  | signed _ ih => exact ih outer (by simp [Level.IsChain])
  | power _ ih => exact ih outer (by simp [Level.IsChain])
  | primary _ ih =>
    obtain ⟨hleaves, hpeak⟩ := ih outer (by simp [Level.IsChain])
    exact ⟨⟨[], isInner_nil, hleaves⟩, hpeak⟩
  | @addSub ts l d us r e o op ho _ _ ihl ihr =>
    have houter := houter (.inl rfl)
    obtain ⟨hl, hpeakl⟩ := ihl outer fun _ => houter
    obtain ⟨hr, hpeakr⟩ := ihr outer fun _ => houter
    obtain ⟨hreads, hpeak⟩ := reads_operator us (o := o)
      (by rcases ho with ⟨h, -⟩ | ⟨h, -⟩ <;> simp [h]) houter hl
    rw [hreads, hpeak, hpeakl, hpeakr]
    exact ⟨hr, by omega⟩
  | @mulDiv ts l d us r e o op ho _ _ ihl ihr =>
    have houter := houter (.inr rfl)
    obtain ⟨hl, hpeakl⟩ := ihl outer fun _ => houter
    obtain ⟨hr, hpeakr⟩ := ihr outer (by simp [Level.IsChain])
    obtain ⟨hreads, hpeak⟩ := reads_operator us (o := o)
      (by rcases ho with ⟨h, -⟩ | ⟨h, -⟩ | ⟨h, -⟩ <;> simp [h]) houter hl
    rw [hreads, hpeak, hpeakl, hpeakr]
    exact ⟨hr, by omega⟩
  | @sign ts t d o sg ho _ ih =>
    obtain ⟨⟨inner, hinner, hreads⟩, hpeak⟩ := ih (.sign :: outer) (by simp [Level.IsChain])
    have hsign : o.lexeme = .plus ∨ o.lexeme = .minus := ho.imp And.left And.left
    rw [reads_cons, peak, read_sign hsign, hpeak]
    refine ⟨⟨inner ++ [.sign], hinner.append (isInner_replicate 1 (by simp)),
      by simpa using hreads⟩, ?_⟩
    simp only [depth, List.length_cons]
    omega
  | @raise ts b d us x e o ho _ _ ihb ihx =>
    obtain ⟨hb, hpeakb⟩ := ihb outer (by simp [Level.IsChain])
    obtain ⟨⟨inner, hinner, hreads⟩, hpeakx⟩ := ihx (.exponent :: outer) (by simp [Level.IsChain])
    have hb : (⟨outer, true⟩ : Standing).reads ts = ⟨outer, false⟩ := hb
    rw [reads_append, reads_cons, peak_append_cons, hb, ho, read_power, hpeakb, hpeakx]
    refine ⟨⟨inner ++ [.exponent], hinner.append (isInner_replicate 1 (by simp)),
      by simpa using hreads⟩, ?_⟩
    simp only [List.length_cons]
    omega
  | number ht | name ht => simp [Level.Leaves, peak, depth, ht]
  | @group ts t d lp rp hlp hrp _ ih =>
    obtain ⟨⟨inner, hinner, hreads⟩, hpeak⟩ := ih (.bracket :: outer) fun _ => isOuter_bracket outer
    rw [List.cons_append, reads_cons, peak, hlp, read_lparen, reads_append, reads_cons,
      peak_append_cons, hreads, hrp, read_rparen hinner, hpeak]
    refine ⟨rfl, ?_⟩
    simp only [peak, depth, List.length_cons]
    omega
  | @callEmpty n lp rp f hn hlp hrp =>
    have hclose : (⟨[] ++ .bracket :: outer, true⟩ : Standing).read .rparen = ⟨outer, false⟩ :=
      read_rparen isInner_nil
    rw [List.nil_append] at hclose
    simp only [reads_cons, reads_nil, peak, hn, hlp, hrp, read_name, read_lparen, hclose]
    refine ⟨rfl, ?_⟩
    simp only [depth, List.length_cons]
    omega
  | @call ts t d rp hrp _ ih =>
    obtain ⟨⟨inner, hinner, hreads⟩, hpeak⟩ := ih outer (by simp [Level.IsChain])
    rw [reads_append, reads_cons, peak_append_cons, hreads, hrp, read_rparen hinner, hpeak]
    refine ⟨rfl, ?_⟩
    simp only [peak, depth]
    omega
  | @argument ts t d n lp f hn hlp _ ih =>
    obtain ⟨hreads, hpeak⟩ := ih (.bracket :: outer) fun _ => isOuter_bracket outer
    simp only [reads_cons, peak, hn, hlp, read_name, read_lparen, hpeak]
    refine ⟨hreads, ?_⟩
    simp only [depth, List.length_cons]
    omega
  | @comma ts d us t e c f args span hc _ _ ih iht =>
    obtain ⟨hcall, hpeakc⟩ := ih outer (by simp [Level.IsChain])
    obtain ⟨ht, hpeakt⟩ := iht (.bracket :: outer) fun _ => isOuter_bracket outer
    obtain ⟨hreads, hpeak⟩ := reads_operator us (o := c) (by simp [hc])
      (isOuter_bracket outer) hcall
    rw [hreads, hpeak, hpeakc, hpeakt]
    refine ⟨ht, ?_⟩
    simp only [List.length_cons]
    omega

end Derives

/-- The largest number of levels that are open at one place of an expression is its nesting. -/
theorem nesting_of_derives {ts : List Token} {t : Expr} {d : Nat} (h : Derives .sum ts t d) :
    nesting ts = d := by
  have hpeak := (h.leaves [] fun _ => .inl rfl).2
  rwa [List.length_nil, Nat.zero_add] at hpeak

end Reckoner
