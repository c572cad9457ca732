import Reckoner.Proofs.Scanning.Fronts
import Reckoner.Proofs.Traps.Evaluation

/-!
# Scanning with traps

Scanning is stated once more, with every step that can trap: the source is read by its positions,
the kind of a sign is looked up by its name, the digits of an integer are limited, and a double is
read by the library. If the library does what is documented, then nothing traps but what is a fault
of the source, and the tokens are those of a scan.
-/

namespace Reckoner

open Text

/-- The lexeme of a sign, which is looked up by its label. -/
def lexemeOfLabel (label : String) : Except Trap Lexeme :=
  entry (signLexemes.find? fun l => l.label == label)

/-- The whole number that digits write; too many digits are refused, and so is anything else. -/
def readDigits (cs : List Char) : Except Trap Int :=
  if integerDigitLimit < cs.length then
    .error (.value (Cause.tooManyDigitsReason integerDigitLimit cs.length))
  else if cs.isEmpty || !cs.all Char.isDigit then
    .error (.value "no whole number")
  else
    .ok (natOfDigits cs)

/-- A text that is refused is a fault of the number that it should be. -/
def refusalIsFault {α : Type} (text : String) (s : Span) : Except Trap α → Except Trap α
  | .error (.value reason) => .error (.fault ⟨.invalidNumber text reason, s⟩)
  | r => r

namespace Library

variable (lib : Library)

/-- The value of a numeral: a whole one is read as an integer, whose range is checked before a value
is made of it, and any other one as a double. -/
def number (n : Numeral) (s : Span) : Except Trap Value := do
  if n.isWhole then
    let k ← refusalIsFault (String.ofList n.text) s (readDigits n.text)
    if !fitsInteger k then
      throw (.fault ⟨.invalidNumber (String.ofList n.text) Cause.outOfRangeReason, s⟩)
    boundedInteger k
  else
    let x ← lib.read n.text
    return .float x

/-- The token of a front. -/
def token (f : Front) (pos : Nat) : Except Trap (Option Token) := do
  let s : Span := ⟨pos, pos + f.length⟩
  match f with
  | .gap => return none
  | .sign l =>
    let l ← lexemeOfLabel l.label
    return some ⟨l, s⟩
  | .name cs => return some ⟨.identifier (some (String.ofList cs)), s⟩
  | .numeral n =>
    let v ← lib.number n s
    return some ⟨.number (some v), s⟩

/-- Cut a source into tokens from a position on. -/
def scanAt (source : List Char) (pos : Nat) : Except Trap (List Token) :=
  if h : pos < source.length then
    match hf : Front.ofCons? source[pos] (source.drop (pos + 1)) with
    | none => do
      let c ← element source pos
      throw (.fault (Fault.invalidCharacter (String.singleton c) pos))
    | some f => do
      let t ← lib.token f pos
      let ts ← scanAt source (pos + f.length)
      return t.toList ++ ts
  else
    return [⟨.eof, ⟨source.length, source.length⟩⟩]
termination_by source.length - pos
decreasing_by
  have := Front.length_pos hf
  omega

end Library

/-- Every sign is in the table. -/
theorem lexemeOfLabel_eq {c : Char} {l : Lexeme} (h : signLexeme? c = some l) :
    lexemeOfLabel l.label = .ok l := by
  have hall : ∀ l ∈ signLexemes, lexemeOfLabel l.label = .ok l := by
    simp only [signLexemes, List.forall_mem_cons, List.not_mem_nil, false_implies, implies_true]
    refine ⟨?_, ?_, ?_, ?_, ?_, ?_, ?_, ?_, ?_, trivial⟩ <;> rfl
  exact hall l (mem_signLexemes h)

/-- The digits of a whole numeral are read unless there are too many. -/
theorem readDigits_eq {n : Numeral} (hn : n.WellFormed) (hw : n.isWhole = true) :
    readDigits n.text = if integerDigitLimit < n.whole.length then
      .error (.value (Cause.tooManyDigitsReason integerDigitLimit n.whole.length))
    else .ok (natOfDigits n.whole) := by
  obtain ⟨hf, he⟩ : n.fraction = none ∧ n.exponent = none := by simpa [Numeral.isWhole] using hw
  have htext : n.text = n.whole := by simp [Numeral.text, Numeral.mantissa, hf, he]
  have hne : n.whole ≠ [] := htext ▸ hn.text_ne_nil
  rw [readDigits, htext]
  simp [hne, hn.whole]

section Results

variable {lib : Library}

namespace Library.Documented

variable (h : lib.Documented)

include h

/-- A number traps only by a fault of its text. -/
theorem number_eq {cs rest : List Char} {n : Numeral} (hn : Numeral.take cs = some (n, rest))
    (s : Span) : lib.number n s = raised (n.toValue.mapError fun c => ⟨c, s⟩) := by
  have hwf := Numeral.wellFormed_of_take hn
  unfold Library.number Numeral.toValue
  cases hw : n.isWhole with
  | false =>
    simp only [Bool.false_eq_true, ite_false, h.read hn hw]
    rfl
  | true =>
    simp only [ite_true, readDigits_eq hwf hw]
    by_cases hlimit : integerDigitLimit < n.whole.length
    · rw [if_pos hlimit, if_pos hlimit]
      rfl
    · rw [if_neg hlimit, if_neg hlimit]
      simp only [refusalIsFault, ok_then, boundedInteger, Integer.ofInt?]
      by_cases hfits : fitsInteger (natOfDigits n.whole) = true
      · simp only [hfits, Bool.not_true, Bool.false_eq_true, ite_false, dite_true]
        rfl
      · simp only [hfits, Bool.not_false, ite_true]
        rfl

/-- A token traps only by a fault of its text. -/
theorem token_eq {c : Char} {cs : List Char} {f : Front} (hf : Front.ofCons? c cs = some f)
    (pos : Nat) : lib.token f pos = raised (f.toToken pos) := by
  rcases Front.cases_of_ofCons? hf with ⟨n, rest, hn, rfl⟩ | rfl | ⟨l, hl, rfl⟩ | rfl
  · simp only [token, Front.toToken, h.number_eq hn]
    cases n.toValue <;> rfl
  · rfl
  · simp only [token, lexemeOfLabel_eq hl]
    rfl
  · rfl

/-- Scanning traps only by faults, and its tokens and faults are those of a scan. -/
theorem scanAt_eq (source : List Char) {pos : Nat} (hpos : pos ≤ source.length) :
    lib.scanAt source pos = raised (scanFrom (source.drop pos) 0 pos) := by
  induction hk : source.length - pos using Nat.strongRecOn generalizing pos with
  | ind k ih =>
    rw [scanAt]
    by_cases hlt : pos < source.length
    · rw [dif_pos hlt, List.drop_eq_getElem_cons hlt, scanFrom]
      split
      · rename_i hf
        rw [hf, element, List.getElem?_eq_getElem hlt]
        rfl
      · rename_i f hf
        have hpos := Front.length_pos hf
        have hle := Front.length_le hf
        rw [List.length_drop] at hle
        rw [hf, h.token_eq hf, ih _ (by omega) (by omega) rfl]
        simp only
        cases f.toToken pos with
        | error e => rfl
        | ok t =>
          have hskip : scanFrom (source.drop (pos + 1)) (f.length - 1) (pos + 1) =
              scanFrom (source.drop (pos + f.length)) 0 (pos + f.length) := by
            rw [scanFrom_skip (by rw [List.length_drop]; omega), List.drop_drop,
              show pos + 1 + (f.length - 1) = pos + f.length by omega]
          simp only [hskip]
          cases scanFrom (source.drop (pos + f.length)) 0 (pos + f.length) <;> rfl
    · rw [dif_neg hlt, List.drop_eq_nil_of_le (by omega)]
      obtain rfl : pos = source.length := by omega
      rfl

end Library.Documented

end Results

end Reckoner
