import Reckoner.Proofs.Data.Doubles
import Reckoner.Proofs.Evaluation.Recursion
import Reckoner.Proofs.Parsing.Acceptance
import Reckoner.Proofs.Scanning.Tokenization
import Reckoner.Proofs.Traps.Calculation

/-!
# Results are calculated to themselves

The text of a value is a numeral, behind a dash if the value is negative. It is scanned to the
numeral and the sign, and what is parsed from them is evaluated to the value that was written. Only
the least integer is lost: its magnitude is one more than the greatest, so that its numeral is
refused before it can be negated.
-/

namespace Reckoner

open Data

/-! ### Scanning a result -/

section Scanning

variable {n : Numeral} {v : Value}

/-- A dash leads whatever it stands before. -/
theorem leads_dash (cs : List Char) : Leads ['-'] ('-' :: cs) := by
  have hnone : Numeral.take ('-' :: cs) = none := by
    simp [Numeral.take, takeMantissa, takeDigits]
  refine ⟨⟨cs, rfl⟩, .inr (.inr ⟨.minus, '-', rfl, rfl⟩), ?_⟩
  intro other hfront hother
  obtain ⟨-, -, rfl⟩ := eq_sign_of_isLexical hnone (by decide) hfront hother
  exact Nat.le_refl _

/-- A numeral leads its own text. -/
theorem Numeral.WellFormed.leads_text (hn : n.WellFormed) : Leads n.text n.text := by
  obtain ⟨c, r, htext, -⟩ := hn.exists_head
  have htake := Numeral.take_text hn
  rw [htext] at htake
  have hleads := leads_numeral htake
  rwa [← htext] at hleads

/-- What a numeral carries is written as its text. -/
theorem Numeral.WellFormed.writes_of_toValue (hn : n.WellFormed) (hv : n.toValue = .ok v) :
    Writes (.number (some v)) n.text := by
  rcases hn.toValue_cases with ⟨w, hw, hwrites⟩ | ⟨-, ⟨-, he⟩ | ⟨-, -, he⟩⟩
  · rw [hv] at hw
    obtain rfl := Except.ok.inj hw
    exact hwrites
  · rw [hv] at he
    cases he
  · rw [hv] at he
    cases he

/-- A source that is cut up to its end is scanned. -/
theorem Cut.scan_eq {source : List Char} {p : Nat} {us : List Token} (h : Cut source p us)
    (hp : p = source.length) :
    ∃ e, scan (String.ofList source) = .ok (us ++ [e]) ∧ e.lexeme = .eof := by
  have hscan := h.scan_take
  rw [hp, List.take_length] at hscan
  exact ⟨_, hscan, rfl⟩

/-- A numeral is scanned to its number. -/
theorem exists_scan_numeral (hn : n.WellFormed) (hv : n.toValue = .ok v) :
    ∃ s e, scan (String.ofList n.text) = .ok ([⟨.number (some v), s⟩] ++ [e]) ∧
      e.lexeme = .eof := by
  have hcut : Cut n.text _ _ := Cut.start.token hn.leads_text (hn.writes_of_toValue hv)
  obtain ⟨e, hscan, he⟩ := hcut.scan_eq (Nat.zero_add _)
  exact ⟨_, e, hscan, he⟩

/-- A numeral behind a dash is scanned to the sign and its number. -/
theorem exists_scan_dash (hn : n.WellFormed) (hv : n.toValue = .ok v) :
    ∃ s s' e, scan (String.ofList ('-' :: n.text)) =
      .ok ([⟨.minus, s⟩, ⟨.number (some v), s'⟩] ++ [e]) ∧ e.lexeme = .eof := by
  have hdash : Cut ('-' :: n.text) 1 [⟨.minus, ⟨0, 1⟩⟩] :=
    Cut.start.token (leads_dash n.text) (.sign rfl)
  have hcut : Cut ('-' :: n.text) _ _ := hdash.token hn.leads_text (hn.writes_of_toValue hv)
  obtain ⟨e, hscan, he⟩ := hcut.scan_eq (Nat.add_comm _ _)
  exact ⟨_, _, e, hscan, he⟩

end Scanning

/-! ### Calculating a result -/

section Calculating

variable {n : Numeral} {v : Value} {options : Options}

/-- The value of a numeral is calculated from its text. -/
theorem result_calculate_numeral (hn : n.WellFormed) (hv : n.toValue = .ok v) (ops : FloatOps)
    (hdepth : 0 < options.maxDepth) :
    (calculate ops options (String.ofList n.text)).result = .ok v := by
  obtain ⟨s, e, hscan, he⟩ := exists_scan_numeral hn hv
  have hderives : Derives .sum [⟨.number (some v), s⟩] (.literal v s) 0 :=
    .product (.signed (.power (.primary (.number rfl))))
  have hparse := Parser.parse_of_derives he (s := .initial .empty options.maxDepth) rfl hderives
    hdepth.le
  rw [result_calculate hscan, hparse]
  rfl

/-- The text of a numeral behind a dash is calculated by negating the value of the numeral. -/
theorem result_calculate_dash (hn : n.WellFormed) (hv : n.toValue = .ok v) (ops : FloatOps)
    (hdepth : 0 < options.maxDepth) :
    ∃ s, (calculate ops options (String.ofList ('-' :: n.text))).result =
      (Sign.neg.apply ops s v).mapError Stop.fault := by
  obtain ⟨s, s', e, hscan, he⟩ := exists_scan_dash hn hv
  have hderives : Derives .sum [⟨.minus, s⟩, ⟨.number (some v), s'⟩]
      (.signed .neg (.literal v s') s) 1 :=
    .product (.signed (.sign (.inr ⟨rfl, rfl⟩) (.power (.primary (.number rfl)))))
  have hparse := Parser.parse_of_derives he (s := .initial .empty options.maxDepth) rfl hderives
    hdepth
  refine ⟨s, ?_⟩
  rw [result_calculate hscan, hparse]
  simp only [Expr.evaluate_signed, Expr.evaluate_literal]
  rfl

/-- Integers of the same number are the same. -/
private theorem integer_ext {i j : Integer} (h : i.val = j.val) : i = j := by
  cases i
  cases j
  congr

/-- The numeral of a whole number carries it if it is an integer value. -/
theorem toValue_wholeNumeral {m : Nat} (h : m ≤ 9223372036854775807) :
    ∃ i : Integer, i.val = m ∧ (wholeNumeral m).toValue = .ok (.integer i) := by
  have hfits : fitsInteger m = true := fitsInteger_iff.mpr (by omega)
  have hlength : (wholeNumeral m).whole.length ≤ 19 :=
    (Nat.length_toDigits_le_iff (by decide) (by decide)).mpr (by omega)
  have hlimit : ¬integerDigitLimit < (wholeNumeral m).whole.length := by
    rw [integerDigitLimit]
    omega
  have hdigits : Text.natOfDigits (wholeNumeral m).whole = m := Nat.ofDigitChars_ten_toDigits
  have hwhole : (wholeNumeral m).isWhole = true := rfl
  refine ⟨⟨m, hfits⟩, rfl, ?_⟩
  simp only [Numeral.toValue, if_pos hwhole, if_neg hlimit, hdigits, Integer.ofInt?, dif_pos hfits]

/-- The text of every integer but the least one is calculated to the integer. -/
theorem result_calculate_integer (ops : FloatOps) (hdepth : 0 < options.maxDepth) {i : Integer}
    (hi : i.val ≠ leastInteger) :
    (calculate ops options (Value.integer i).text).result = .ok (.integer i) := by
  have hbounds := fitsInteger_iff.mp i.fits
  rw [leastInteger] at hi
  obtain ⟨j, hj, hvalue⟩ := toValue_wholeNumeral (m := i.val.natAbs) (by omega)
  have htext : (Value.integer i).text =
      String.ofList (signText (decide (i.val < 0)) ++ (wholeNumeral i.val.natAbs).text) := by
    rw [← toList_toString_int, String.ofList_toList]
    rfl
  rw [htext]
  by_cases hneg : i.val < 0
  · obtain ⟨s, hresult⟩ :=
      result_calculate_dash (wellFormed_wholeNumeral i.val.natAbs) hvalue ops hdepth
    have hopposite : -j.val = i.val := by omega
    have hof : Integer.ofInt? i.val = some i := dif_pos i.fits
    rw [decide_eq_true hneg]
    refine hresult.trans ?_
    simp only [Sign.apply, hopposite, checkedInteger, hof]
    rfl
  · have hji : j = i := integer_ext (by omega)
    rw [decide_eq_false hneg, ← hji]
    exact result_calculate_numeral (wellFormed_wholeNumeral _) (hji ▸ hvalue) ops hdepth

/-- The text of a finite double that reads back is calculated to the double. -/
theorem result_calculate_float {ops : FloatOps} (hneg : ops.neg = Float.neg)
    (hdepth : 0 < options.maxDepth) {x : Float} (hfinite : x.isFinite = true) (h : ReadsBack x) :
    (calculate ops options (Value.float x).text).result = .ok (.float x) := by
  obtain ⟨n, hn, htext⟩ := exists_floatText hfinite h
  have hvalue : n.toValue = .ok (.float n.value.toFloat) := by
    rw [Numeral.toValue, if_neg (by simp [hn.notWhole])]
  rw [ReadsBack, htext, readFloat?_text hn.wellFormed] at h
  have hsigned := Option.some.inj h
  have hsource : (Value.float x).text = String.ofList (signText (signBit x) ++ n.text) := by
    rw [← htext, String.ofList_toList]
    rfl
  rw [hsource]
  cases hsign : signBit x with
  | true =>
    obtain ⟨s, hresult⟩ := result_calculate_dash hn.wellFormed hvalue ops hdepth
    rw [hsign] at hsigned
    refine hresult.trans ?_
    rw [Sign.apply, hneg, ← hsigned]
    rfl
  | false =>
    rw [hsign] at hsigned
    rw [← hsigned]
    exact result_calculate_numeral hn.wellFormed hvalue ops hdepth

end Calculating

/-- The text of an integer or of a finite double is calculated to that value, whatever the nesting
limit is. The least integer is the one exception: the numeral behind its dash is refused. -/
theorem calculate_text {ops : FloatOps} (hneg : ops.neg = Float.neg) {options : Options}
    (hdepth : 0 < options.maxDepth) (v : Value)
    (hv : ∀ x, v = .float x → x.isFinite = true ∧ ReadsBack x) :
    (calculate ops options v.text).result =
      if v = .integer ⟨leastInteger, rfl⟩ then
        .error (.fault ⟨.invalidNumber "9223372036854775808" Cause.outOfRangeReason, ⟨1, 20⟩⟩)
      else .ok v := by
  cases v with
  | integer i =>
    by_cases hi : i.val = leastInteger
    · obtain rfl : i = ⟨leastInteger, rfl⟩ := integer_ext hi
      have hscan : scan (Value.integer ⟨leastInteger, rfl⟩).text = .error
          ⟨.invalidNumber "9223372036854775808" Cause.outOfRangeReason, ⟨1, 20⟩⟩ := by
        decide +kernel
      rw [if_pos rfl, result_calculate_of_error hscan]
    · rw [if_neg, result_calculate_integer ops hdepth hi]
      rintro ⟨⟩
      exact hi rfl
  | float x =>
    obtain ⟨hfinite, hreads⟩ := hv x rfl
    rw [if_neg nofun, result_calculate_float hneg hdepth hfinite hreads]

/-- Under a nesting limit of one the texts of negative zero, of a small negative double and of the
least integer but one are calculated to these values, and that of the least integer is refused. -/
theorem calculate_text_negative :
    (calculate .machine ⟨false, false, 1⟩ "-0.0").result = .ok (.float (-0.0)) ∧
    (calculate .machine ⟨false, false, 1⟩ "-1.5e-07").result = .ok (.float (-1.5e-7)) ∧
    (calculate .machine ⟨false, false, 1⟩ "-9223372036854775807").result =
      .ok (.integer ⟨-9223372036854775807, rfl⟩) ∧
    (calculate .machine ⟨false, false, 1⟩ "-9223372036854775808").result =
      .error (.fault ⟨.invalidNumber "9223372036854775808" Cause.outOfRangeReason, ⟨1, 20⟩⟩) := by
  have hdepth : 0 < (⟨false, false, 1⟩ : Options).maxDepth := by decide
  have hfloat {x : Float} (hx : x.isFinite = true ∧ ReadsBack x) :
      ∀ y, Value.float x = .float y → y.isFinite = true ∧ ReadsBack y := by
    rintro y ⟨⟩
    exact hx
  have hneg : FloatOps.machine.neg = Float.neg := rfl
  have hzero := calculate_text hneg hdepth (.float (-0.0))
    (hfloat ⟨by decide +kernel, by unfold ReadsBack; decide +kernel⟩)
  have hsmall := calculate_text hneg hdepth (.float (-1.5e-7))
    (hfloat ⟨by decide +kernel, by unfold ReadsBack; decide +kernel⟩)
  have hnext := calculate_text hneg hdepth (.integer ⟨-9223372036854775807, rfl⟩) nofun
  have hleast := calculate_text hneg hdepth (.integer ⟨leastInteger, rfl⟩) nofun
  rw [if_neg nofun, show (Value.float (-0.0)).text = "-0.0" by decide +kernel] at hzero
  rw [if_neg nofun, show (Value.float (-1.5e-7)).text = "-1.5e-07" by decide +kernel] at hsmall
  rw [if_neg (by decide), show (Value.integer ⟨-9223372036854775807, rfl⟩).text =
    "-9223372036854775807" by decide +kernel] at hnext
  rw [if_pos rfl, show (Value.integer ⟨leastInteger, rfl⟩).text =
    "-9223372036854775808" by decide +kernel] at hleast
  exact ⟨hzero, hsmall, hnext, hleast⟩

end Reckoner
