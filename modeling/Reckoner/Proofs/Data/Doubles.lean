import Mathlib.Data.List.DropRight
import Reckoner.Log.Record
import Reckoner.Number.Reading
import Reckoner.Proofs.Data.Numbers

/-!
# Doubles are read back

The text of a finite double is a strict numeral with a point or an exponent after an optional dash.
That reading this numeral gives the double again is a fact about the rounding of doubles, which is
named here and not proved; whatever double it holds of is read back from a data line.
-/

namespace Reckoner

open Text

/-- A double that is given again by reading its text. -/
def ReadsBack (x : Float) : Prop := readFloat? (floatText x).toList = some x

namespace Data

/-- A finite double is neither infinite nor undefined. -/
theorem isNaN_and_isInf_of_isFinite {x : Float} (h : x.isFinite = true) :
    x.isNaN = false ∧ x.isInf = false := by
  simp only [Float.isFinite, Float.isNaN, Float.isInf, Float.Model.isFinite, Float.Model.isNaN,
    Float.Model.isInf] at *
  cases hx : x.toModel.unpack <;> rw [hx] at h <;> first | exact ⟨rfl, rfl⟩ | cases h

/-- A double that is not finite is infinite or no number. -/
theorem isNaN_or_isInf {x : Float} (h : x.isFinite = false) :
    x.isNaN = true ∨ x.isNaN = false ∧ x.isInf = true := by
  simp only [Float.isFinite, Float.isNaN, Float.isInf, Float.Model.isFinite, Float.Model.isNaN,
    Float.Model.isInf] at *
  cases hx : x.toModel.unpack with
  | notANumber => exact .inl rfl
  | infinity _ => exact .inr ⟨rfl, rfl⟩
  | _ =>
    rw [hx] at h
    cases h

/-! ### The texts of doubles -/

/-- A strict numeral with a point or an exponent. -/
structure IsDouble (n : Numeral) : Prop where
  /-- The numeral is well-formed. -/
  wellFormed : n.WellFormed
  /-- The numeral is strict. -/
  strict : isStrict n = true
  /-- The numeral has a point or an exponent. -/
  notWhole : n.isWhole = false

/-- The digits of a number are digits. -/
private theorem all_toDigits (n : Nat) : (Nat.toDigits 10 n).all Char.isDigit = true :=
  List.all_eq_true.mpr fun _ hc => Nat.isDigit_of_mem_toDigits (by decide) (by decide) hc

/-- Zeros are digits. -/
private theorem all_replicate_zero (n : Nat) : (List.replicate n '0').all Char.isDigit = true := by
  rw [List.all_eq_true]
  intro c hc
  rw [List.eq_of_mem_replicate hc]
  decide

/-- The significant digits of a positive number begin with a digit that is not zero. -/
theorem exists_significant {d : Decimal} (h : 0 < d.digits) :
    ∃ c r, d.significant.1 = c :: r ∧ c ≠ '0' ∧ (c :: r).all Char.isDigit = true := by
  have hhead := head?_toDigits_ne h
  have hprefix : d.significant.1 <+: Nat.toDigits 10 d.digits := List.rdropWhile_prefix _ _
  have hall := all_toDigits d.digits
  have hne : d.significant.1 ≠ [] := by
    intro hnil
    have hzeros := List.rdropWhile_eq_nil_iff.mp hnil
    cases hds : Nat.toDigits 10 d.digits with
    | nil => exact Nat.toDigits_ne_nil hds
    | cons c r =>
      rw [hds] at hhead hzeros
      exact hhead (congrArg some (beq_iff_eq.mp (hzeros c List.mem_cons_self)))
  obtain ⟨c, r, hcr⟩ := List.exists_cons_of_ne_nil hne
  rw [hcr] at hprefix
  obtain ⟨t, ht⟩ := hprefix
  rw [← ht] at hhead hall
  refine ⟨c, r, hcr, fun hc => hhead (congrArg some hc), ?_⟩
  rw [List.all_append, Bool.and_eq_true] at hall
  exact hall.1

/-- A numeral is strict if its first digit is the only one before the point or is not zero, and if
a digit follows its point. -/
private theorem isStrict_of_cons {n : Numeral} {c : Char} {w : List Char} (hw : n.whole = c :: w)
    (hc : c ≠ '0' ∨ w = []) (hf : n.fraction ≠ some []) : isStrict n = true := by
  rcases hc with hc | hc <;> simp [isStrict, hw, hc, hf]

/-- Digits on both sides of a point are a numeral with a point. -/
private theorem exists_point {c : Char} {w f : List Char}
    (hw : (c :: w).all Char.isDigit = true) (hf : f.all Char.isDigit = true) (hne : f ≠ [])
    (hc : c ≠ '0' ∨ w = []) : ∃ n, IsDouble n ∧ n.text = c :: (w ++ '.' :: f) := by
  refine ⟨⟨c :: w, some f, none⟩, ⟨⟨hw, ?_, .inl (List.cons_ne_nil c w), ?_⟩,
    isStrict_of_cons rfl hc ?_, rfl⟩, ?_⟩
  · intro ds hds
    cases hds
    exact hf
  · intro e he
    cases he
  · intro hnil
    exact hne (Option.some.inj hnil)
  · simp [Numeral.text, Numeral.mantissa]

/-- Digits in positional notation are a numeral with a point. -/
theorem exists_positional {c : Char} {r : List Char} (hc : c ≠ '0')
    (hdigits : (c :: r).all Char.isDigit = true) (lead : Int) :
    ∃ n, IsDouble n ∧ n.text = positional (c :: r) lead := by
  unfold positional
  split
  · refine exists_point (w := []) (by decide) ?_ ?_ (.inr rfl)
    · rw [List.all_append, all_replicate_zero, hdigits]
      rfl
    · simp
  · have htake : ((c :: r).take (lead.toNat + 1)).all Char.isDigit = true :=
      List.all_eq_true.mpr fun d hd => List.all_eq_true.mp hdigits d (List.mem_of_mem_take hd)
    have hdrop : ((c :: r).drop (lead.toNat + 1)).all Char.isDigit = true :=
      List.all_eq_true.mpr fun d hd => List.all_eq_true.mp hdigits d (List.mem_of_mem_drop hd)
    refine exists_point
      (w := r.take lead.toNat ++ List.replicate (lead.toNat + 1 - (c :: r).length) '0')
      ?_ ?_ ?_ (.inl hc)
    · rw [← List.cons_append, List.all_append, all_replicate_zero, Bool.and_true]
      exact htake
    · split
      · decide
      · exact hdrop
    · split
      · decide
      · rename_i hrest
        simpa using hrest

/-- Digits in scientific notation are a numeral with an exponent. -/
theorem exists_scientific {c : Char} {r : List Char} (hdigits : (c :: r).all Char.isDigit = true)
    (width : Nat) (lead : Int) : ∃ n, IsDouble n ∧ n.text = scientific width (c :: r) lead := by
  have hc : c.isDigit = true := List.all_eq_true.mp hdigits c List.mem_cons_self
  have hr : r.all Char.isDigit = true :=
    List.all_eq_true.mpr fun d hd => List.all_eq_true.mp hdigits d (List.mem_cons_of_mem c hd)
  let e : Exponent := ⟨'e', some (if lead < 0 then '-' else '+'),
    List.replicate (width - (Nat.toDigits 10 lead.natAbs).length) '0' ++
      Nat.toDigits 10 lead.natAbs⟩
  have he : e.WellFormed := by
    refine ⟨.inl rfl, ?_, ?_, ?_⟩
    · intro s hs
      cases hs
      split
      · exact .inr rfl
      · exact .inl rfl
    · rw [List.all_append, all_replicate_zero, all_toDigits]
      rfl
    · exact List.append_ne_nil_of_right_ne_nil _ Nat.toDigits_ne_nil
  refine ⟨⟨[c], if r.isEmpty then none else some r, some e⟩, ⟨⟨?_, ?_,
    .inl (List.cons_ne_nil c []), ?_⟩, isStrict_of_cons rfl (.inr rfl) ?_, ?_⟩, ?_⟩
  · simpa using hc
  · intro ds hds
    split at hds
    · cases hds
    · cases hds
      exact hr
  · intro e' he'
    cases he'
    exact he
  · cases r <;> simp
  · simp [Numeral.isWhole]
  · cases r <;> simp [Numeral.text, Numeral.mantissa, scientific, Exponent.text, e]

/-- A positive number in the notation of doubles is a numeral with a point or an exponent. -/
theorem exists_render {d : Decimal} (h : 0 < d.digits) (l : Layout) :
    ∃ n, IsDouble n ∧ n.text = l.render d := by
  obtain ⟨c, r, hcr, hc, hdigits⟩ := exists_significant h
  simp only [Layout.render, hcr]
  split
  · exact exists_positional hc hdigits _
  · exact exists_scientific hdigits _ _

/-! ### Reading them -/

/-- A magnitude with a sign. -/
def signed (isNegative : Bool) (x : Float) : Float := if isNegative then -x else x

/-- A numeral with a sign is read as a double. -/
theorem readFloat?_text {n : Numeral} (hn : n.WellFormed) (isNegative : Bool) :
    readFloat? (signText isNegative ++ n.text) = some (signed isNegative n.value.toFloat) := by
  obtain ⟨c, r, htext, hc⟩ := hn.exists_head
  obtain ⟨hsign, hspecial⟩ := unsigned_of_head hc r
  have hof : Numeral.ofText? (c :: r) = some n := by
    rw [← htext, Numeral.ofText?, Numeral.take_text hn]
  cases isNegative with
  | true =>
    simp only [readFloat?, signText, htext, if_true, List.cons_append, List.nil_append, takeSign,
      hspecial, hof]
    rfl
  | false =>
    simp only [readFloat?, signText, htext, Bool.false_eq_true, if_false, List.nil_append, hsign,
      hspecial, hof]
    rfl

/-- Nothing is read without a digit. -/
private theorem readFloat?_exponent (isNegative : Bool) (cs : List Char) :
    readFloat? (signText isNegative ++ 'e' :: cs) = none := by
  have hspecial : specialFloat? ('e' :: cs) = none := by
    have hne : ∀ {d : Char} {w : List Char}, 'e' ≠ d →
        String.ofList (('e' :: cs).map Char.toLower) ≠ String.ofList (d :: w) := by
      intro d w hd h
      rw [String.ofList_inj, List.map_cons] at h
      exact hd (List.cons.inj h).1
    have hinf := hne (w := ['n', 'f']) (by decide : 'e' ≠ 'i')
    have hinfinity := hne (w := ['n', 'f', 'i', 'n', 'i', 't', 'y']) (by decide : 'e' ≠ 'i')
    have hnan := hne (w := ['a', 'n']) (by decide : 'e' ≠ 'n')
    simp_all [specialFloat?]
  have hof : Numeral.ofText? ('e' :: cs) = none := by
    simp [Numeral.ofText?, Numeral.take, takeMantissa, takeDigits]
  cases isNegative <;> simp [readFloat?, signText, takeSign, hspecial, hof]

/-- Without significant digits the notation of doubles is that of zero, or nothing that can be
read. -/
private theorem eq_zero_of_readFloat?_render {d : Decimal} (h : d.digits = 0) (isNegative : Bool)
    {x : Float} (hx : readFloat? (signText isNegative ++ floatLayout.render d) = some x) :
    (x == 0.0) = true := by
  have hzeros : ∀ i < 20, ∀ b : Bool, readFloat? (signText b ++ positional [] ((i : Nat) - 4)) =
      some (signed b 0.0) := by decide +kernel
  have hsignificant : d.significant = ([], d.exponent) := by
    simp [Decimal.significant, h]
  simp only [Layout.render, hsignificant, floatLayout] at hx
  split at hx
  · rename_i hrange
    obtain ⟨i, hi⟩ : ∃ i : Nat, d.exponent = i - 4 := ⟨(d.exponent + 4).toNat, by omega⟩
    rw [hi, hzeros i (by omega)] at hx
    cases hx
    cases isNegative <;> decide +kernel
  · rw [scientific, List.nil_append, readFloat?_exponent] at hx
    cases hx

/-- The text of a finite double that reads back is a numeral with a point or an exponent behind its
sign. -/
theorem exists_floatText {x : Float} (hfinite : x.isFinite = true) (h : ReadsBack x) :
    ∃ n, IsDouble n ∧ (floatText x).toList = signText (signBit x) ++ n.text := by
  obtain ⟨hnan, hinf⟩ := isNaN_and_isInf_of_isFinite hfinite
  have htext : (floatText x).toList = signText (signBit x) ++
      if x == 0.0 then ['0', '.', '0'] else floatLayout.render (shortest x.abs) := by
    simp only [floatText, hnan, hinf, Bool.false_eq_true, if_false, String.toList_ofList]
    rfl
  rw [ReadsBack, htext] at h
  rw [htext]
  by_cases hzero : (x == 0.0) = true
  · rw [if_pos hzero]
    exact ⟨⟨['0'], some ['0'], none⟩, ⟨⟨rfl, by decide, .inl (by decide), nofun⟩, rfl, rfl⟩, rfl⟩
  · rw [if_neg hzero] at h ⊢
    rcases Nat.eq_zero_or_pos (shortest x.abs).digits with hdigits | hdigits
    · exact absurd (eq_zero_of_readFloat?_render hdigits _ h) hzero
    · obtain ⟨n, hn, hrender⟩ := exists_render hdigits floatLayout
      exact ⟨n, hn, by rw [hrender]⟩

/-- A finite double in a data line is its text. -/
theorem floatData_of_isFinite {x : Float} (h : x.isFinite = true) : floatData x = floatText x := by
  obtain ⟨hnan, hinf⟩ := isNaN_and_isInf_of_isFinite h
  rw [floatData, hnan, hinf, if_neg Bool.false_ne_true, if_neg Bool.false_ne_true]

/-- A finite double that reads back is read back from a data line. -/
theorem readNumber?_float {x : Float} (hfinite : x.isFinite = true) (h : ReadsBack x)
    {rest : List Char} (hrest : Stops rest) :
    readNumber? ((floatData x).toList ++ rest) = some (.float x, rest) := by
  obtain ⟨n, hn, htext⟩ := exists_floatText hfinite h
  rw [ReadsBack, htext, readFloat?_text hn.wellFormed] at h
  rw [floatData_of_isFinite hfinite, htext, readNumber?_text hn.wellFormed hn.strict _ hrest,
    number, if_neg (by simp [hn.notWhole])]
  exact congrArg (fun y => some (Scalar.float y, rest)) (Option.some.inj h)

end Data

end Reckoner
