import Reckoner.Proofs.Scanning.Fronts
import Reckoner.Proofs.Scanning.Readings

/-!
# What leads a source

The front that a scan finds is the longest lexical text at the front of the source. So one step of a
scan has one of three outcomes, none of which mentions how the front is found: it passes over a
blank, it makes a token of the text that leads the source, or it refuses the source.
-/

namespace Reckoner

open Text

/-- The source cannot be read from here on: neither a blank nor a token starts here, or the integer
that leads it has too many digits or is out of range. -/
inductive Refuses (source : List Char) (pos : Nat) : Fault → Prop where
  /-- No text of a token and no blank starts here. -/
  | character {c : Char} (hc : source.head? = some c) (hblank : ¬IsBlank c)
      (hnone : ∀ text, text <+: source → ¬IsLexical text) :
      Refuses source pos ⟨.invalidCharacter (String.singleton c), ⟨pos, pos + 1⟩⟩
  /-- An integer of too many digits leads the source. -/
  | tooManyDigits {text : List Char} (h : Leads text source) (hwhole : IsWhole text)
      (hlimit : 4300 < text.length) :
      Refuses source pos ⟨.invalidNumber (String.ofList text)
        (Cause.tooManyDigitsReason 4300 text.length), ⟨pos, pos + text.length⟩⟩
  /-- An integer that is too great leads the source. -/
  | outOfRange {text : List Char} (h : Leads text source) (hwhole : IsWhole text)
      (hlimit : text.length ≤ 4300) (hvalue : 9223372036854775807 < decimalValue text) :
      Refuses source pos ⟨.invalidNumber (String.ofList text) Cause.outOfRangeReason,
        ⟨pos, pos + text.length⟩⟩

section Heads

variable {c : Char} {cs other : List Char}

/-- The sign of a lexeme makes that lexeme. -/
theorem sign?_eq_some_iff {l : Lexeme} : l.sign? = some c ↔ signLexeme? c = some l := by
  constructor
  · intro h
    cases l <;> cases h <;> rfl
  · intro h
    unfold signLexeme? at h
    split at h <;> first | (cases h; rfl) | cases h

/-- A numeral at the front is no longer than the one that is cut off. -/
theorem IsNumeral.exists_take (h : IsNumeral other) (hfront : other <+: cs) :
    ∃ n r, Numeral.take cs = some (n, r) ∧ other.length ≤ n.text.length := by
  obtain ⟨n, hn, rfl⟩ := h
  obtain ⟨rest, rfl⟩ := hfront
  exact Numeral.exists_take_of_text_append hn rest

/-- A name at the front starts with a letter and is no longer than the run of its characters. -/
theorem IsName.length_le (h : IsName other) (hfront : other <+: c :: cs) :
    c.isAlpha = true ∧ other.length ≤ (c :: cs.takeWhile isNameChar).length := by
  obtain ⟨d, r, rfl, hd, hr⟩ := h
  obtain ⟨rest, hrest⟩ := hfront
  rw [List.cons_append] at hrest
  obtain ⟨rfl, rfl⟩ := List.cons.inj hrest
  refine ⟨hd, ?_⟩
  have hall : ∀ x ∈ r, isNameChar x = true := fun x hx => by
    simpa [isNameChar, or_assoc] using hr x hx
  rw [List.takeWhile_append_of_pos hall]
  simp

/-- A sign at the front is the first character. -/
theorem IsSign.exists_lexeme (h : IsSign other) (hfront : other <+: c :: cs) :
    ∃ l, signLexeme? c = some l ∧ other = [c] := by
  obtain ⟨l, d, hl, rfl⟩ := h
  obtain ⟨rest, hrest⟩ := hfront
  obtain ⟨rfl, -⟩ := List.cons.inj hrest
  exact ⟨l, sign?_eq_some_iff.mp hl, rfl⟩

/-- A letter starts no numeral. -/
theorem isAlpha_of_take {n : Numeral} {r : List Char} (h : Numeral.take (c :: cs) = some (n, r)) :
    c.isAlpha = false := by
  obtain ⟨d, s, hs, hd⟩ := (Numeral.wellFormed_of_take h).exists_head
  have hcs := Numeral.text_append_of_take h
  rw [hs, List.cons_append] at hcs
  obtain ⟨rfl, -⟩ := List.cons.inj hcs
  rcases hd with hd | rfl
  · rw [Bool.eq_false_iff, Ne, isAlpha_iff]
    have := isDigit_iff.mp hd
    omega
  · rfl

/-- The numeral that is cut off leads the source. -/
theorem leads_numeral {n : Numeral} {r : List Char} (h : Numeral.take (c :: cs) = some (n, r)) :
    Leads n.text (c :: cs) := by
  have hwf := Numeral.wellFormed_of_take h
  refine ⟨⟨r, Numeral.text_append_of_take h⟩, .inl ⟨n, hwf, rfl⟩, fun other hfront hother => ?_⟩
  rcases hother with hnumeral | hname | hsign
  · obtain ⟨n', r', h', hle⟩ := hnumeral.exists_take hfront
    rw [h] at h'
    obtain ⟨rfl, -⟩ := Prod.mk.inj (Option.some.inj h')
    exact hle
  · exact absurd (hname.length_le hfront).1 (by rw [isAlpha_of_take h]; exact Bool.false_ne_true)
  · obtain ⟨-, -, rfl⟩ := hsign.exists_lexeme hfront
    exact List.length_pos_iff.mpr hwf.text_ne_nil

/-- Where no numeral starts, a letter and the run of name characters after it lead the source. -/
theorem leads_name (hnone : Numeral.take (c :: cs) = none) (hc : c.isAlpha = true) :
    Leads (c :: cs.takeWhile isNameChar) (c :: cs) ∧ IsName (c :: cs.takeWhile isNameChar) := by
  have hname : IsName (c :: cs.takeWhile isNameChar) := by
    refine ⟨c, _, rfl, hc, fun x hx => ?_⟩
    simpa [isNameChar, or_assoc] using List.all_eq_true.mp List.all_takeWhile x hx
  refine ⟨⟨List.cons_prefix_cons.mpr ⟨rfl, List.takeWhile_prefix _⟩, .inr (.inl hname),
    fun other hfront hother => ?_⟩, hname⟩
  rcases hother with hnumeral | hname | hsign
  · obtain ⟨n, r, h, -⟩ := hnumeral.exists_take hfront
    rw [hnone] at h
    cases h
  · exact (hname.length_le hfront).2
  · obtain ⟨-, -, rfl⟩ := hsign.exists_lexeme hfront
    simp

/-- Where neither a numeral nor a name starts, only a sign can lead the source. -/
theorem eq_sign_of_isLexical (hnone : Numeral.take (c :: cs) = none) (hc : c.isAlpha = false)
    (hfront : other <+: c :: cs) (hother : IsLexical other) :
    ∃ l, signLexeme? c = some l ∧ other = [c] := by
  rcases hother with hnumeral | hname | hsign
  · obtain ⟨n, r, h, -⟩ := hnumeral.exists_take hfront
    rw [hnone] at h
    cases h
  · exact absurd (hname.length_le hfront).1 (by rw [hc]; exact Bool.false_ne_true)
  · exact hsign.exists_lexeme hfront

/-- Only the blanks are gaps. -/
theorem isGap_iff : isGap c = true ↔ IsBlank c := by
  simp [isGap, IsBlank, or_assoc]

end Heads

/-- A whole numeral is written as its digits. -/
theorem Numeral.text_of_isWhole {n : Numeral} (h : n.isWhole = true) : n.text = n.whole := by
  obtain ⟨hf, he⟩ : n.fraction = none ∧ n.exponent = none := by simpa [isWhole] using h
  simp [text, mantissa, hf, he]

/-- A numeral that is not whole has a point or the mark of an exponent. -/
theorem Numeral.WellFormed.mem_text_of_isWhole {n : Numeral} (hn : n.WellFormed)
    (h : n.isWhole = false) : '.' ∈ n.text ∨ 'e' ∈ n.text ∨ 'E' ∈ n.text := by
  unfold Numeral.text Numeral.mantissa
  cases hf : n.fraction with
  | some ds => exact .inl (by simp)
  | none =>
    cases he : n.exponent with
    | none => simp [isWhole, hf, he] at h
    | some e =>
      rcases (hn.exponent e he).mark with hmark | hmark
      · exact .inr (.inl (by simp [Exponent.text, hmark]))
      · exact .inr (.inr (by simp [Exponent.text, hmark]))

/-- A numeral carries what its text says, unless the text is an integer with too many digits or out
of range. -/
theorem Numeral.WellFormed.toValue_cases {n : Numeral} (hn : n.WellFormed) :
    (∃ v, n.toValue = .ok v ∧ Writes (.number (some v)) n.text) ∨
    IsWhole n.text ∧ (4300 < n.text.length ∧ n.toValue = .error (.invalidNumber
        (String.ofList n.text) (Cause.tooManyDigitsReason 4300 n.text.length)) ∨
      n.text.length ≤ 4300 ∧ 9223372036854775807 < decimalValue n.text ∧
        n.toValue = .error (.invalidNumber (String.ofList n.text) Cause.outOfRangeReason)) := by
  unfold Numeral.toValue
  cases hw : n.isWhole with
  | false =>
    exact .inl ⟨_, rfl, .float ⟨n, hn, rfl⟩ (hn.mem_text_of_isWhole hw) hn.readFreeFloat?_text⟩
  | true =>
    have htext := Numeral.text_of_isWhole hw
    have hwhole : IsWhole n.text := ⟨hn.text_ne_nil, by
      rw [htext]
      exact List.all_eq_true.mp hn.whole⟩
    simp only [← htext, natOfDigits_eq_decimalValue, ite_true, integerDigitLimit]
    by_cases hlimit : 4300 < n.text.length
    · rw [if_pos hlimit]
      exact .inr ⟨hwhole, .inl ⟨hlimit, rfl⟩⟩
    · rw [if_neg hlimit]
      have hle := Nat.le_of_not_lt hlimit
      cases hi : Integer.ofInt? (decimalValue n.text) with
      | some i => exact .inl ⟨_, rfl, .whole hwhole hle (Integer.val_of_ofInt? hi)⟩
      | none =>
        refine .inr ⟨hwhole, .inr ⟨hle, ?_, rfl⟩⟩
        have := Integer.ofInt?_eq_none_iff.mp hi
        simp only [leastInteger, greatestInteger] at this
        omega

section Steps

variable {c : Char} {cs : List Char} {f : Front} {pos : Nat}

/-- Behind a front that makes a token or a blank the scan goes on. -/
theorem scanFrom_of_ok {t : Option Token} (hf : Front.ofCons? c cs = some f)
    (ht : f.toToken pos = .ok t) :
    scanFrom (c :: cs) 0 pos =
      (scanFrom ((c :: cs).drop f.length) 0 (pos + f.length)).map (t.toList ++ ·) := by
  have hpos := Front.length_pos hf
  have hle := Front.length_le hf
  obtain ⟨k, hk⟩ := Nat.exists_eq_add_of_le' hpos
  have hskip : scanFrom cs (f.length - 1) (pos + 1) =
      scanFrom ((c :: cs).drop f.length) 0 (pos + f.length) := by
    rw [scanFrom_skip (by omega), hk]
    simp [Nat.add_comm, Nat.add_left_comm]
  rw [scanFrom, hf]
  simp only [ht, hskip]
  cases scanFrom ((c :: cs).drop f.length) 0 (pos + f.length) <;> rfl

/-- A front that makes no token is a fault. -/
theorem scanFrom_of_error {e : Fault} (hf : Front.ofCons? c cs = some f)
    (ht : f.toToken pos = .error e) : scanFrom (c :: cs) 0 pos = .error e := by
  rw [scanFrom, hf]
  simp only [ht]

/-- One step of a scan: a blank is passed over, or the text that leads the source makes a token, or
the source is refused. -/
theorem scanFrom_cases (c : Char) (cs : List Char) (pos : Nat) :
    (IsBlank c ∧ scanFrom (c :: cs) 0 pos = scanFrom cs 0 (pos + 1)) ∨
    (∃ text l, Leads text (c :: cs) ∧ Writes l text ∧ scanFrom (c :: cs) 0 pos =
      (scanFrom ((c :: cs).drop text.length) 0 (pos + text.length)).map
        (⟨l, ⟨pos, pos + text.length⟩⟩ :: ·)) ∨
    ∃ f, Refuses (c :: cs) pos f ∧ scanFrom (c :: cs) 0 pos = .error f := by
  cases htake : Numeral.take (c :: cs) with
  | some p =>
    obtain ⟨n, r⟩ := p
    have hf : Front.ofCons? c cs = some (.numeral n) := by rw [Front.ofCons?, htake]
    have hleads := leads_numeral htake
    rcases (Numeral.wellFormed_of_take htake).toValue_cases with ⟨v, hv, hwrites⟩ | ⟨hwhole, h⟩
    · refine .inr (.inl ⟨n.text, _, hleads, hwrites, ?_⟩)
      exact scanFrom_of_ok hf (t := some _) (by simp only [Front.toToken, hv]; rfl)
    · rcases h with ⟨hlimit, hv⟩ | ⟨hlimit, hvalue, hv⟩
      · exact .inr (.inr ⟨_, .tooManyDigits hleads hwhole hlimit,
          scanFrom_of_error hf (by simp only [Front.toToken, hv]; rfl)⟩)
      · exact .inr (.inr ⟨_, .outOfRange hleads hwhole hlimit hvalue,
          scanFrom_of_error hf (by simp only [Front.toToken, hv]; rfl)⟩)
  | none =>
    cases hc : c.isAlpha with
    | true =>
      have hf : Front.ofCons? c cs = some (.name (c :: cs.takeWhile isNameChar)) := by
        rw [Front.ofCons?, htake]
        simp only [hc, ite_true]
      obtain ⟨hleads, hname⟩ := leads_name htake hc
      exact .inr (.inl ⟨_, _, hleads, .name hname, scanFrom_of_ok hf (t := some _) rfl⟩)
    | false =>
      cases hl : signLexeme? c with
      | some l =>
        have hf : Front.ofCons? c cs = some (.sign l) := by
          rw [Front.ofCons?, htake]
          simp only [hc, hl, Bool.false_eq_true, ite_false]
        have hsign : l.sign? = some c := sign?_eq_some_iff.mpr hl
        refine .inr (.inl ⟨[c], l, ⟨⟨cs, rfl⟩, .inr (.inr ⟨l, c, hsign, rfl⟩), ?_⟩, .sign hsign,
          scanFrom_of_ok hf (t := some _) rfl⟩)
        intro other hfront hother
        obtain ⟨-, -, rfl⟩ := eq_sign_of_isLexical htake hc hfront hother
        exact Nat.le_refl _
      | none =>
        by_cases hblank : IsBlank c
        · have hf : Front.ofCons? c cs = some .gap := by
            rw [Front.ofCons?, htake]
            simp only [hc, hl, isGap_iff.mpr hblank, Bool.false_eq_true, ite_false, ite_true]
          refine .inl ⟨hblank, ?_⟩
          rw [scanFrom_of_ok hf (t := none) rfl]
          show Except.map _ (scanFrom cs 0 (pos + 1)) = _
          cases scanFrom cs 0 (pos + 1) <;> rfl
        · have hf : Front.ofCons? c cs = none := by
            rw [Front.ofCons?, htake]
            simp only [hc, hl, isGap_iff, hblank, Bool.false_eq_true, ite_false]
          refine .inr (.inr ⟨_, .character rfl hblank fun other hfront hother => ?_, ?_⟩)
          · obtain ⟨l, h, -⟩ := eq_sign_of_isLexical htake hc hfront hother
            rw [hl] at h
            cases h
          · rw [scanFrom, hf]
            rfl

end Steps

end Reckoner
