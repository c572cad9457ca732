import Reckoner.Proofs.Scanning.Leading

/-!
# Scanning by maximal munch

A source is cut from its start on, at each place by a blank or by the longest text of a token there.
Cuts say nothing of how a scan works, and a scan is what the furthest cut says: its tokens if that
cut reaches the end of the source, and else the fault of what the source is refused for behind it.
-/

namespace Reckoner

section Lexemes

variable {c : Char} {r cs : List Char}

/-- What a text can be that starts with a character. -/
private def classOf (c : Char) : Nat :=
  if c.isDigit || c == '.' then 0
  else if c.isAlpha then 1
  else if (signLexeme? c).isSome then 2
  else 3

private theorem classOf_isNumeral (h : IsNumeral (c :: r)) : classOf c = 0 := by
  obtain ⟨n, hn, htext⟩ := h
  obtain ⟨d, s, hd, hhead⟩ := hn.exists_head
  obtain ⟨rfl, -⟩ := List.cons.inj (htext.symm.trans hd)
  simp [classOf, hhead]

private theorem classOf_isName (h : IsName (c :: r)) : classOf c = 1 := by
  obtain ⟨d, s, hd, halpha, -⟩ := h
  obtain ⟨rfl, -⟩ := List.cons.inj hd
  have hdigit : c.isDigit = false := by
    rw [Bool.eq_false_iff, Ne, isDigit_iff]
    have := isAlpha_iff.mp halpha
    omega
  have hpoint : c ≠ '.' := by
    rintro rfl
    simp at halpha
  simp [classOf, halpha, hdigit, hpoint]

private theorem classOf_isSign (h : IsSign (c :: r)) : classOf c = 2 := by
  obtain ⟨l, d, hl, hd⟩ := h
  obtain ⟨rfl, -⟩ := List.cons.inj hd
  cases l <;> cases hl <;> decide

private theorem classOf_isBlank (h : IsBlank c) : classOf c = 3 := by
  simp only [IsBlank, List.mem_cons, List.not_mem_nil, or_false] at h
  rcases h with rfl | rfl | rfl | rfl | rfl | rfl <;> decide

/-- No text of a token is empty or starts with a blank. -/
theorem IsLexical.exists_head (h : IsLexical cs) : ∃ c r, cs = c :: r ∧ ¬IsBlank c := by
  cases cs with
  | nil =>
    rcases h with ⟨n, hn, h⟩ | ⟨_, _, h, -⟩ | ⟨_, _, -, h⟩
    · exact absurd h hn.text_ne_nil
    · cases h
    · cases h
  | cons c r =>
    refine ⟨c, r, rfl, fun hb => ?_⟩
    have hblank := classOf_isBlank hb
    rcases h with h | h | h
    · exact absurd ((classOf_isNumeral h).symm.trans hblank) (by decide)
    · exact absurd ((classOf_isName h).symm.trans hblank) (by decide)
    · exact absurd ((classOf_isSign h).symm.trans hblank) (by decide)

/-- Texts of different kinds start with different characters. -/
theorem IsNumeral.not_isName (h : IsNumeral cs) : ¬IsName cs := by
  intro hname
  obtain ⟨c, r, rfl, -⟩ := IsLexical.exists_head (.inl h)
  exact absurd ((classOf_isNumeral h).symm.trans (classOf_isName hname)) (by decide)

theorem IsNumeral.not_isSign (h : IsNumeral cs) : ¬IsSign cs := by
  intro hsign
  obtain ⟨c, r, rfl, -⟩ := IsLexical.exists_head (.inl h)
  exact absurd ((classOf_isNumeral h).symm.trans (classOf_isSign hsign)) (by decide)

theorem IsName.not_isSign (h : IsName cs) : ¬IsSign cs := by
  intro hsign
  obtain ⟨c, r, rfl, -⟩ := IsLexical.exists_head (.inr (.inl h))
  exact absurd ((classOf_isName h).symm.trans (classOf_isSign hsign)) (by decide)

/-- Digits are no numeral with a point or an exponent. -/
theorem IsWhole.not_mem (h : IsWhole cs) : ¬('.' ∈ cs ∨ 'e' ∈ cs ∨ 'E' ∈ cs) := by
  rintro (hc | hc | hc) <;> exact absurd (h.2 _ hc) (by decide)

/-- A text is written for one lexeme only. -/
theorem Writes.unique {l l' : Lexeme} (h : Writes l cs) (h' : Writes l' cs) : l = l' := by
  cases h with
  | sign hd =>
    have hsign : IsSign _ := ⟨_, _, hd, rfl⟩
    cases h' with
    | sign hd' =>
      exact Option.some.inj ((sign?_eq_some_iff.mp hd).symm.trans (sign?_eq_some_iff.mp hd'))
    | name hn => exact absurd hsign hn.not_isSign
    | whole hw _ _ => exact absurd hsign hw.isNumeral.not_isSign
    | float hf _ _ => exact absurd hsign hf.not_isSign
  | name hn =>
    cases h' with
    | sign hd => exact absurd ⟨_, _, hd, rfl⟩ hn.not_isSign
    | name _ => rfl
    | whole hw _ _ => exact absurd hn hw.isNumeral.not_isName
    | float hf _ _ => exact absurd hn hf.not_isName
  | @whole _ hw _ i hi =>
    cases h' with
    | sign hd => exact absurd ⟨_, _, hd, rfl⟩ hw.isNumeral.not_isSign
    | name hn => exact absurd hn hw.isNumeral.not_isName
    | @whole _ _ _ j hj =>
      cases i
      cases j
      cases hi.trans hj.symm
      rfl
    | float _ hc _ => exact absurd hc hw.not_mem
  | float hf hc hx =>
    cases h' with
    | sign hd => exact absurd ⟨_, _, hd, rfl⟩ hf.not_isSign
    | name hn => exact absurd hn hf.not_isName
    | whole hw _ _ => exact absurd hc hw.not_mem
    | float _ _ hx' => rw [Option.some.inj (hx.symm.trans hx')]

/-- An integer literal that is written for a token has not too many digits and is in range. -/
theorem Writes.le_of_isWhole {l : Lexeme} (h : Writes l cs) (hw : IsWhole cs) :
    cs.length ≤ 4300 ∧ decimalValue cs ≤ 9223372036854775807 := by
  cases h with
  | sign hd => exact absurd ⟨_, _, hd, rfl⟩ hw.isNumeral.not_isSign
  | name hn => exact absurd hn hw.isNumeral.not_isName
  | @whole _ _ hlimit i hi =>
    have := fitsInteger_iff.mp i.fits
    exact ⟨hlimit, by omega⟩
  | float _ hc _ => exact absurd hc hw.not_mem

/-- Only one text leads a source. -/
theorem Leads.unique {a b source : List Char} (ha : Leads a source) (hb : Leads b source) :
    a = b := by
  have hab := hb.longest a ha.front ha.lexical
  have hba := ha.longest b hb.front hb.lexical
  have hfront := List.prefix_of_prefix_length_le ha.front hb.front hab
  exact hfront.eq_of_length (Nat.le_antisymm hab hba)

/-- A text of a token leads no source that starts with a blank. -/
theorem Leads.not_isBlank {text : List Char} (h : Leads text (c :: r)) : ¬IsBlank c := by
  obtain ⟨d, s, rfl, hd⟩ := h.lexical.exists_head
  obtain ⟨rest, hrest⟩ := h.front
  rw [List.cons_append] at hrest
  exact (List.cons.inj hrest).1 ▸ hd

variable {source : List Char} {p : Nat} {f : Fault}

/-- No source is refused for a blank. -/
theorem Refuses.not_isBlank (h : Refuses (c :: r) p f) : ¬IsBlank c := by
  cases h with
  | character hc hblank _ => exact Option.some.inj hc ▸ hblank
  | tooManyDigits hleads _ _ | outOfRange hleads _ _ _ => exact hleads.not_isBlank

/-- No source is refused that a text of a token leads. -/
theorem Refuses.not_writes (h : Refuses source p f) {text : List Char} (hleads : Leads text source)
    (l : Lexeme) : ¬Writes l text := by
  intro hw
  cases h with
  | character _ _ hnone => exact hnone text hleads.front hleads.lexical
  | tooManyDigits hleads' hwhole hlimit =>
    obtain rfl := hleads.unique hleads'
    exact absurd (hw.le_of_isWhole hwhole).1 (Nat.not_le_of_lt hlimit)
  | outOfRange hleads' hwhole _ hvalue =>
    obtain rfl := hleads.unique hleads'
    exact absurd (hw.le_of_isWhole hwhole).2 (Nat.not_le_of_lt hvalue)

end Lexemes

/-- A scan passes over a blank. -/
theorem scanFrom_blank {c : Char} (hb : IsBlank c) (cs : List Char) (p : Nat) :
    scanFrom (c :: cs) 0 p = scanFrom cs 0 (p + 1) := by
  rcases scanFrom_cases c cs p with ⟨-, h⟩ | ⟨_, _, hleads, -⟩ | ⟨f, hf, -⟩
  · exact h
  · exact absurd hb hleads.not_isBlank
  · exact absurd hb hf.not_isBlank

/-- A scan makes a token of the text that leads a source. -/
theorem scanFrom_token {source text : List Char} {l : Lexeme} (hleads : Leads text source)
    (hw : Writes l text) (p : Nat) : scanFrom source 0 p =
      (scanFrom (source.drop text.length) 0 (p + text.length)).map
        (⟨l, ⟨p, p + text.length⟩⟩ :: ·) := by
  obtain ⟨c, r, rfl, hblank⟩ := hleads.lexical.exists_head
  obtain ⟨rest, rfl⟩ := hleads.front
  rcases scanFrom_cases c (r ++ rest) p with ⟨hb, -⟩ | ⟨text, l', hleads', hw', h⟩ | ⟨f, hf, -⟩
  · exact absurd hb hblank
  · obtain rfl := hleads.unique hleads'
    obtain rfl := hw.unique hw'
    exact h
  · exact absurd hw (hf.not_writes hleads l)

/-- A source is cut into tokens up to an offset: at each place a blank is passed over, or the text
that leads the rest of the source makes a token. -/
inductive Cut (source : List Char) : Nat → List Token → Prop where
  /-- Nothing is cut. -/
  | start : Cut source 0 []
  /-- A blank is passed over. -/
  | blank {p : Nat} {ts : List Token} {c : Char} (h : Cut source p ts) (hc : source[p]? = some c)
      (hb : IsBlank c) : Cut source (p + 1) ts
  /-- A token is cut off. -/
  | token {p : Nat} {ts : List Token} {text : List Char} {l : Lexeme} (h : Cut source p ts)
      (hleads : Leads text (source.drop p)) (hw : Writes l text) :
      Cut source (p + text.length) (ts ++ [⟨l, ⟨p, p + text.length⟩⟩])

namespace Cut

variable {source : List Char} {p q : Nat} {ts : List Token}

theorem le_length (h : Cut source p ts) : p ≤ source.length := by
  induction h with
  | start => exact Nat.zero_le _
  | blank _ hc _ _ => exact (List.getElem?_eq_some_iff.mp hc).1
  | token _ hleads _ ih =>
    have := hleads.front.length_le
    rw [List.length_drop] at this
    omega

/-- A scan goes on behind a cut. -/
theorem scanFrom_eq (h : Cut source p ts) :
    scanFrom source 0 0 = (scanFrom (source.drop p) 0 p).map (ts ++ ·) := by
  induction h with
  | start =>
    rw [List.drop_zero]
    cases scanFrom source 0 0 <;> rfl
  | @blank p ts c h hc hb ih =>
    obtain ⟨hlt, hc⟩ := List.getElem?_eq_some_iff.mp hc
    rw [ih, List.drop_eq_getElem_cons hlt, hc, scanFrom_blank hb]
  | token _ hleads hw ih =>
    rw [ih, scanFrom_token hleads hw, List.drop_drop]
    cases scanFrom (source.drop _) 0 _ <;> simp [Except.map]

/-- A cut goes on until the source ends or is refused. -/
theorem exists_furthest (h : Cut source p ts) : ∃ q us, Cut source q us ∧
    (q = source.length ∨ ∃ f, Refuses (source.drop q) q f ∧
      scanFrom (source.drop q) 0 q = .error f) := by
  induction hk : source.length - p using Nat.strongRecOn generalizing p ts with
  | ind k ih =>
    rcases Nat.eq_or_lt_of_le h.le_length with hp | hp
    · exact ⟨p, ts, h, .inl hp⟩
    · have hdrop := List.drop_eq_getElem_cons hp
      rcases scanFrom_cases source[p] (source.drop (p + 1)) p with
        ⟨hb, -⟩ | ⟨text, l, hleads, hw, -⟩ | ⟨f, hf, hscan⟩
      · exact ih _ (by omega) (h.blank (List.getElem?_eq_getElem hp) hb) rfl
      · rw [← hdrop] at hleads
        have hnext := h.token hleads hw
        have hle := hnext.le_length
        have hpos : 0 < text.length := by
          obtain ⟨c, r, rfl, -⟩ := hleads.lexical.exists_head
          exact Nat.succ_pos _
        exact ih _ (by omega) hnext rfl
      · rw [← hdrop] at hf hscan
        exact ⟨p, ts, h, .inr ⟨f, hf, hscan⟩⟩

/-- A cut does not depend on what follows it. -/
theorem take (h : Cut source p ts) (hq : p ≤ q) : Cut (source.take q) p ts := by
  induction h with
  | start => exact .start
  | blank _ hc hb ih => exact (ih (by omega)).blank (by rw [List.getElem?_take_of_lt hq, hc]) hb
  | @token p ts text l _ hleads hw ih =>
    have hfront : (source.take q).drop p <+: source.drop p := by
      rw [List.drop_take]
      exact List.take_prefix _ _
    refine (ih (by omega)).token ⟨?_, hleads.lexical, fun other h => ?_⟩ hw
    · rw [List.drop_take, List.prefix_take_iff]
      exact ⟨hleads.front, by omega⟩
    · exact hleads.longest other (h.trans hfront)

end Cut

end Reckoner
