import Mathlib
import Reckoner.Proofs.Scanning.Readings

/-!
# Numerals are magnitudes

A numeral has no sign. Neither rounding nor packing nor scaling by a power of ten gives it one, so
the double that is nearest to it is a magnitude: it is a number, and it is not the negative zero.
Among such doubles those that compare equal are one.
-/

namespace Reckoner

open Float.Model (Format UnpackedFloat)
open Float.Model.UnpackedFloat

/-- An unpacked double that is a number without a sign. -/
inductive IsUnsigned : UnpackedFloat → Prop where
  /-- Beyond the largest. -/
  | infinity : IsUnsigned (.infinity .positive)
  /-- Zero. -/
  | zero : IsUnsigned (.zero .positive)
  /-- A positive number. -/
  | finite (m : Nat) (e : Int) (h : 0 < m) : IsUnsigned (.finite .positive m e h)

/-- Whether an unpacked double is a positive number. -/
def isPositive : UnpackedFloat → Bool
  | .finite .positive _ _ _ => true
  | _ => false

/-- A positive number has a mantissa and an exponent. -/
theorem eq_finite_of_isPositive {u : UnpackedFloat} (h : isPositive u = true) :
    ∃ m e h, u = .finite .positive m e h := by
  unfold isPositive at h
  split at h
  · exact ⟨_, _, _, rfl⟩
  · cases h

/-- A double that is a number without a sign. -/
def IsMagnitude (x : Float) : Prop := IsUnsigned x.toModel.unpack

/-! ### Nothing gives a sign -/

section Packing

variable {spec : Format} {u v : UnpackedFloat}

/-- Rounding gives no sign. -/
theorem isUnsigned_roundWithAccuracy (m : Nat) (e : Int) (a : Accuracy) :
    IsUnsigned (roundWithAccuracy spec .positive m e a) := by
  unfold roundWithAccuracy
  dsimp only
  split
  · exact .zero
  · exact .finite _ _ _

/-- The bits of a number without a sign are unpacked to one, whatever its digits are. -/
theorem isUnsigned_unpack_packComponents {e : BitVec spec.exponentBits}
    {m : BitVec spec.mantissaBitsWithoutImplicit} (h : e ≠ -1#_ ∨ m = 0#_) :
    IsUnsigned (unpack spec (packComponents spec .positive e m)) := by
  unfold unpack
  simp only [unpackMantissa_packComponents, unpackExponent_packComponents,
    unpackSign_packComponents, Sign.ofBitVec_toBitVec]
  split
  · rename_i he
    rw [if_pos (h.resolve_left (not_not_intro he))]
    exact .infinity
  · split
    · split
      · exact .zero
      · exact .finite _ _ _
    · exact .finite _ _ _

/-- Packing gives no sign. -/
theorem IsUnsigned.unpack_pack (h : IsUnsigned u) : IsUnsigned (unpack spec (pack spec u)) := by
  have hzero : (0#_ : BitVec spec.exponentBits) ≠ -1#_ := by
    rw [ne_eq, BitVec.zero_eq_neg_one_iff]
    exact Nat.ne_of_gt spec.he
  cases h with
  | infinity => exact isUnsigned_unpack_packComponents (.inr rfl)
  | zero => exact isUnsigned_unpack_packComponents (.inr rfl)
  | finite m e h =>
    unfold pack
    dsimp only
    split
    · exact isUnsigned_unpack_packComponents (.inr rfl)
    · rename_i hlt
      split
      · refine isUnsigned_unpack_packComponents (.inl fun hmax => ?_)
        have hbits := congrArg BitVec.toNat hmax
        simp only [BitVec.neg_one_eq_allOnes, BitVec.toNat_allOnes, BitVec.toNat_ofNat] at hbits
        rw [Nat.mod_eq_of_lt (by omega)] at hbits
        omega
      · exact isUnsigned_unpack_packComponents (.inl hzero)

/-- The product with a positive number has no sign. -/
theorem IsUnsigned.mul (h : IsUnsigned u) (hv : isPositive v = true) :
    IsUnsigned (UnpackedFloat.mul spec u v) := by
  obtain ⟨m, e, hm, rfl⟩ := eq_finite_of_isPositive hv
  cases h with
  | infinity => exact .infinity
  | zero => exact .zero
  | finite => exact isUnsigned_roundWithAccuracy _ _ _

/-- The quotient by a positive number has no sign. -/
theorem IsUnsigned.div (h : IsUnsigned u) (hv : isPositive v = true) :
    IsUnsigned (UnpackedFloat.div spec u v) := by
  obtain ⟨m, e, hm, rfl⟩ := eq_finite_of_isPositive hv
  cases h with
  | infinity => exact .infinity
  | zero => exact .zero
  | finite => exact isUnsigned_roundWithAccuracy _ _ _

/-- Scaling by a power of ten gives no sign. -/
theorem isUnsigned_ofScientific (m : Nat) (e : Int) :
    IsUnsigned (UnpackedFloat.ofScientific spec m e) := by
  unfold UnpackedFloat.ofScientific
  split_ifs
  · exact .zero
  · exact .infinity
  · exact .zero
  · exact (IsUnsigned.finite _ _ _).mul rfl
  · exact (IsUnsigned.finite _ _ _).div rfl

end Packing

section Doubles

variable {x y : Float}

/-- A number without a sign is packed to a magnitude. -/
theorem IsUnsigned.isMagnitude {u : UnpackedFloat} (h : IsUnsigned u) :
    IsMagnitude (.ofModel (Float.Model.pack u)) :=
  h.unpack_pack

/-- The double nearest to a whole number has no sign. -/
theorem isUnsigned_unpack_toFloat (n : UInt64) : IsUnsigned n.toFloat.toModel.unpack := by
  refine IsUnsigned.unpack_pack ?_
  unfold ofUInt64 UnpackedFloat.ofNat ofInt UnpackedFloat.normalize
  split
  · rename_i h
    exact absurd (Int.compare_eq_lt.mp h) (Int.not_lt.mpr (Int.natCast_nonneg _))
  · exact .zero
  · exact isUnsigned_roundWithAccuracy _ _ _

/-- The powers of ten that are doubles are positive. -/
theorem isPositive_unpack_power : ∀ i : Fin 23,
    isPositive Float.exactlyRepresentablePowersOfTen[i].toModel.unpack = true := by
  decide +kernel

/-- The double nearest to a decimal number is a magnitude. -/
theorem Decimal.isMagnitude_toFloat (d : Decimal) : IsMagnitude d.toFloat := by
  unfold Decimal.toFloat Float.ofScientific
  split
  · rename_i h
    -- digits and power are doubles, so that one operation rounds
    have hdigits := isUnsigned_unpack_toFloat d.digits.toUInt64
    have hpower := isPositive_unpack_power ⟨d.exponent.natAbs, by omega⟩
    dsimp only
    split
    · exact (hdigits.div hpower).isMagnitude
    · exact (hdigits.mul hpower).isMagnitude
  · exact (isUnsigned_ofScientific _ _).isMagnitude

/-- A magnitude is a number. -/
theorem IsMagnitude.isNaN (h : IsMagnitude x) : x.isNaN = false := by
  have hne : x.toModel.unpack ≠ .notANumber := by
    intro hnan
    rw [IsMagnitude, hnan] at h
    cases h
  exact Bool.eq_false_iff.mpr fun hnan => hne (isNaN_iff.mp hnan)

/-- A magnitude is not the negative zero. -/
theorem IsMagnitude.ne_neg_zero (h : IsMagnitude x) : x ≠ -0.0 := by
  rintro rfl
  have hneg : (-0.0 : Float).toModel.unpack = .zero .negative := rfl
  rw [IsMagnitude, hneg] at h
  cases h

/-! ### Comparing doubles -/

/-- A double with one zero for both. -/
def oneZero (x : Float) : Float := if x == 0.0 then 0.0 else x

theorem oneZero_neg_zero : oneZero (-0.0) = 0.0 := by decide +kernel

/-- A double that is not the negative zero is left as it is. -/
theorem oneZero_of_ne (h : x ≠ -0.0) : oneZero x = x := by
  unfold oneZero
  split
  · rename_i hzero
    rcases Float.beq_iff_ne_nan_and_eq.mp hzero with ⟨-, -, rfl | ⟨-, hneg⟩ | ⟨rfl, -⟩⟩
    · rfl
    · exact absurd hneg (by decide +kernel)
    · exact absurd rfl h
  · rfl

/-- Doubles compare equal exactly if they are numbers and differ at most in the sign of zero. -/
theorem beq_iff_oneZero_eq : (x == y) = true ↔ oneZero x = oneZero y ∧ x.isNaN = false := by
  rw [Float.isNaN_eq_decide_eq_nan, decide_eq_false_iff_not]
  constructor
  · intro h
    obtain ⟨hx, -, hxy⟩ := Float.beq_iff_ne_nan_and_eq.mp h
    refine ⟨?_, hx⟩
    rcases hxy with rfl | ⟨rfl, rfl⟩ | ⟨rfl, rfl⟩
    · rfl
    · decide +kernel
    · decide +kernel
  · rintro ⟨h, hx⟩
    by_cases hx' : x = -0.0 <;> by_cases hy' : y = -0.0
    · rw [hx', hy']
      decide +kernel
    · rw [hx', oneZero_neg_zero, oneZero_of_ne hy'] at h
      rw [hx', ← h]
      decide +kernel
    · rw [hy', oneZero_neg_zero, oneZero_of_ne hx'] at h
      rw [hy', h]
      decide +kernel
    · rw [oneZero_of_ne hx', oneZero_of_ne hy'] at h
      rw [← h]
      exact Float.beq_self_iff.mpr hx

/-- The double that a source text stands for is a magnitude. -/
theorem Writes.isMagnitude {cs : List Char} (h : Writes (.number (some (.float x))) cs) :
    IsMagnitude x := by
  cases h with
  | sign h => cases h
  | float h _ hx =>
    obtain ⟨n, hn, rfl⟩ := h
    obtain rfl := Option.some.inj (hn.readFreeFloat?_text.symm.trans hx)
    exact n.value.isMagnitude_toFloat

end Doubles

end Reckoner
