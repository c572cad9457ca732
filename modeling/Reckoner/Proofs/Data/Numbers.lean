import Reckoner.Log.Data
import Reckoner.Proofs.Scanning.Readings

/-!
# Numbers are read back

A strict numeral is read as the number that it writes, unless what follows continues it. A whole
number is written as a strict numeral without point and exponent, and so it is read back.
-/

namespace Reckoner.Data

open Text

/-- A text does not go on with a number. -/
def Stops (cs : List Char) : Prop :=
  ∀ c ∈ cs.head?, c.isDigit = false ∧ c ≠ '.' ∧ c ≠ 'e' ∧ c ≠ 'E'

/-- A text that does not go on with a number does not go on with an exponent. -/
theorem Stops.take_exponent {cs : List Char} (h : Stops cs) : Exponent.take cs = none := by
  cases cs with
  | nil => rfl
  | cons c cs =>
    obtain ⟨-, -, he, hE⟩ := h c rfl
    rw [Exponent.take, if_neg (by tauto)]

/-- The sign in front of a number. -/
def signText (isNegative : Bool) : List Char := if isNegative then ['-'] else []

/-- A strict numeral with a sign is read as its number. -/
theorem readNumber?_text {n : Numeral} (hn : n.WellFormed) (hstrict : isStrict n = true)
    (isNegative : Bool) {rest : List Char} (hrest : Stops rest) :
    readNumber? (signText isNegative ++ n.text ++ rest) = some (number isNegative n, rest) := by
  have htake : Numeral.take (n.text ++ rest) = some (n, rest) :=
    Numeral.take_text_append hn (fun c hc => (hrest c hc).1)
      (fun _ hc => (hrest _ hc).2.1 rfl) fun _ => hrest.take_exponent
  have hhead : ((signText isNegative ++ n.text ++ rest).head? == some '-') = isNegative := by
    cases isNegative with
    | true => rfl
    | false =>
      obtain ⟨c, r, htext, hc⟩ := hn.exists_head
      have hne : c ≠ '-' := by
        rintro rfl
        revert hc
        decide
      simp [signText, htext, hne]
  have hdrop : (if isNegative then (signText isNegative ++ n.text ++ rest).drop 1
      else signText isNegative ++ n.text ++ rest) = n.text ++ rest := by
    cases isNegative <;> rfl
  simp only [readNumber?, hhead, hdrop, htake, if_pos hstrict]

/-! ### Whole numbers -/

/-- The digits of a positive number do not begin with a zero. -/
theorem head?_toDigits_ne {n : Nat} (h : 0 < n) : (Nat.toDigits 10 n).head? ≠ some '0' := by
  induction n using Nat.strongRecOn with
  | ind n ih =>
    by_cases hlt : n < 10
    · have hdigit : ∀ d < 10, 0 < d → Nat.digitChar d ≠ '0' := by decide
      rw [Nat.toDigits_of_lt_base hlt]
      simpa using hdigit n hlt h
    · have hrest := ih (n / 10) (by omega) (by omega)
      rw [Nat.toDigits_eq_if (by decide), if_neg hlt]
      cases hds : Nat.toDigits 10 (n / 10) with
      | nil => exact absurd hds Nat.toDigits_ne_nil
      | cons d ds =>
        rw [hds] at hrest
        exact hrest

/-- The numeral of a whole number. -/
def wholeNumeral (n : Nat) : Numeral := ⟨Nat.toDigits 10 n, none, none⟩

/-- The numeral of a whole number is well-formed. -/
theorem wellFormed_wholeNumeral (n : Nat) : (wholeNumeral n).WellFormed := by
  refine ⟨?_, fun ds hds => ?_, .inl Nat.toDigits_ne_nil, fun e he => ?_⟩
  · exact List.all_eq_true.mpr fun c hc => Nat.isDigit_of_mem_toDigits (by decide) (by decide) hc
  · cases hds
  · cases he

/-- The numeral of a whole number is strict: only zero begins with a zero. -/
theorem isStrict_wholeNumeral (n : Nat) : isStrict (wholeNumeral n) = true := by
  rcases Nat.eq_zero_or_pos n with rfl | hpos
  · decide
  · simp [isStrict, wholeNumeral, Nat.toDigits_ne_nil, head?_toDigits_ne hpos]

/-- The numeral of a whole number stands for it. -/
theorem number_wholeNumeral (isNegative : Bool) (n : Nat) :
    number isNegative (wholeNumeral n) = .int (if isNegative then -n else n) := by
  have hdigits : natOfDigits (wholeNumeral n).whole = n := Nat.ofDigitChars_ten_toDigits
  have hwhole : (wholeNumeral n).isWhole = true := rfl
  rw [number, if_pos hwhole, hdigits]

/-- A whole number is its sign and the digits of its magnitude. -/
theorem toList_toString_int (n : Int) :
    (toString n).toList = signText (decide (n < 0)) ++ (wholeNumeral n.natAbs).text := by
  have htext : ∀ m, (wholeNumeral m).text = Nat.toDigits 10 m := fun m => by
    simp [wholeNumeral, Numeral.text, Numeral.mantissa]
  rw [Int.toString_eq_repr, Int.repr_eq_if, htext]
  by_cases h : 0 ≤ n
  · have habs : n.toNat = n.natAbs := by omega
    rw [if_pos h, decide_eq_false (by omega), Nat.repr_eq_ofList_toDigits, String.toList_ofList,
      habs]
    rfl
  · have habs : (-n).toNat = n.natAbs := by omega
    rw [if_neg h, decide_eq_true (by omega), Nat.repr_eq_ofList_toDigits, String.toList_append,
      habs]
    simp [signText]

/-- A whole number is read back. -/
theorem readNumber?_int (n : Int) {rest : List Char} (hrest : Stops rest) :
    readNumber? ((toString n).toList ++ rest) = some (.int n, rest) := by
  have hvalue : (if decide (n < 0) then -(n.natAbs : Int) else n.natAbs) = n := by
    by_cases h : n < 0
    · rw [decide_eq_true h, if_pos rfl]
      omega
    · rw [decide_eq_false h, if_neg Bool.false_ne_true]
      omega
  rw [toList_toString_int, readNumber?_text (wellFormed_wholeNumeral _) (isStrict_wholeNumeral _)
    _ hrest, number_wholeNumeral, hvalue]

end Reckoner.Data
