import Reckoner.Number.Shortest

/-!
# Values of a calculation

A value is a signed 64-bit integer or a double. The bounds of an integer are part of its type, so
that no step can produce one out of range without saying so. Two values are equal when they are of
the same kind and their numbers are equal: an integer never equals a double, and the two zeros of
the doubles are one.
-/

namespace Reckoner

/-- The least integer value: minus the 63rd power of two. -/
def leastInteger : Int := -9223372036854775808

/-- The greatest integer value: one less than the 63rd power of two. -/
def greatestInteger : Int := 9223372036854775807

/-- Whether a whole number is within the bounds of an integer value. -/
def fitsInteger (n : Int) : Bool := decide (leastInteger ≤ n ∧ n ≤ greatestInteger)

/-- The bounds in figures. -/
theorem fitsInteger_iff {n : Int} :
    fitsInteger n = true ↔ -9223372036854775808 ≤ n ∧ n ≤ 9223372036854775807 := by
  rw [fitsInteger, decide_eq_true_iff]
  simp [leastInteger, greatestInteger]

/-- A signed 64-bit integer. -/
structure Integer where
  /-- The number. -/
  val : Int
  /-- The number is within the bounds. -/
  fits : fitsInteger val = true
  deriving DecidableEq

/-- The integer value of a whole number, if it is within the bounds. -/
def Integer.ofInt? (n : Int) : Option Integer :=
  if h : fitsInteger n = true then some ⟨n, h⟩ else none

/-- The conversion keeps the number. -/
theorem Integer.val_of_ofInt? {n : Int} {i : Integer} (h : Integer.ofInt? n = some i) :
    i.val = n := by
  unfold Integer.ofInt? at h
  split at h
  · injection h with h
    exact h ▸ rfl
  · simp at h

/-- The conversion fails exactly outside the bounds. -/
theorem Integer.ofInt?_eq_none_iff {n : Int} :
    Integer.ofInt? n = none ↔ n < leastInteger ∨ greatestInteger < n := by
  unfold Integer.ofInt?
  split <;> rename_i h <;> simp only [fitsInteger, decide_eq_true_eq] at h <;> simp <;> omega

/-- The remainder of a truncated division never leaves the bounds: its magnitude is at most that of
the dividend and below that of the divisor. -/
theorem fitsInteger_tmod {m n : Int} (hm : fitsInteger m = true) (hn : fitsInteger n = true) :
    fitsInteger (m.tmod n) = true := by
  by_cases h : n = 0
  · simpa [h] using hm
  · have hb := Nat.mod_lt m.natAbs (Int.natAbs_pos.mpr h)
    rw [← Int.natAbs_tmod] at hb
    rw [fitsInteger_iff] at hn ⊢
    omega

/-- The remainder of a truncated division, which has the sign of the dividend. -/
def Integer.rem (m n : Integer) : Integer := ⟨m.val.tmod n.val, fitsInteger_tmod m.fits n.fits⟩

/-- The result of a calculation. -/
inductive Value where
  /-- A signed 64-bit integer. -/
  | integer (n : Integer)
  /-- A double, infinite and not-a-number values included. -/
  | float (x : Float)
  deriving DecidableEq

namespace Value

/-- Whether a value is an integer. -/
def isInteger : Value → Bool
  | integer _ => true
  | float _ => false

/-- The name of the kind of a value. -/
def kindName : Value → String
  | integer _ => "integer"
  | float _ => "float"

/-- A value as text: the digits of an integer, the shortest text of a double. -/
def text : Value → String
  | integer n => toString n.val
  | float x => floatText x

/-- A value with its kind, as it is shown inside a printed expression. -/
def shown : Value → String
  | integer n => "Integer(" ++ toString n.val ++ ")"
  | float x => "Float(" ++ floatText x ++ ")"

/-- Whether two values are of one kind and equal as numbers. -/
def same : Value → Value → Bool
  | integer m, integer n => m == n
  | float x, float y => x == y
  | _, _ => false

end Value

end Reckoner
