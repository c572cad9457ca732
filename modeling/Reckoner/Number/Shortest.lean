import Reckoner.Number.Decimal

/-!
# Shortest decimal text of a double

A finite double is written with the fewest significant digits that read back as the same double;
of two such decimals of one length the nearer is taken, and of two equally near the even one. The
search goes through the grids of one, two, up to seventeen digits, and tries on each the two grid
points around the exact value. Where the notation turns from positional to scientific is the
business of `Layout`.
-/

namespace Reckoner

/-- The exact value of the magnitude of a finite double, as a numerator and a denominator. -/
def exactMagnitude (x : Float) : Nat × Nat :=
  let bits := x.toBits.toNat
  let field := bits / Nat.pow 2 52 % Nat.pow 2 11
  let low := bits % Nat.pow 2 52
  if field = 0 then (low, Nat.pow 2 1074)
  else if field < 1075 then (Nat.pow 2 52 + low, Nat.pow 2 (1075 - field))
  else ((Nat.pow 2 52 + low) * Nat.pow 2 (field - 1075), 1)

/-- The number of decimal digits of a whole number. -/
def decimalLength (n : Nat) : Nat := (Nat.toDigits 10 n).length

/-- Multiply a ratio by a power of ten. -/
def scaleRatio (r : Nat × Nat) (e : Int) : Nat × Nat :=
  if e < 0 then (r.1, r.2 * Nat.pow 10 e.natAbs) else (r.1 * Nat.pow 10 e.natAbs, r.2)

/-- The power of ten of the leading digit of a positive ratio. -/
def leadingExponent (r : Nat × Nat) : Int :=
  let k : Int := (decimalLength r.1 : Int) - decimalLength r.2
  let s := scaleRatio r (-k)
  if s.2 ≤ s.1 then k else k - 1

/-- Whether a decimal number reads back as a given double. -/
def readsBack (x : Float) (d : Decimal) : Bool := d.toFloat.toBits == x.toBits

/-- The point to write of the grid of `n` significant digits: of the two points around `x` the one
that reads back, of two that do the nearer, of two equally near the even one. -/
def gridPoint? (x : Float) (n : Nat) : Option Decimal :=
  let r := exactMagnitude x
  let e := leadingExponent r - n + 1
  let s := scaleRatio r (-e)
  let low : Decimal := ⟨s.1 / s.2, e⟩
  let high : Decimal := ⟨s.1 / s.2 + 1, e⟩
  if readsBack x low then
    if readsBack x high then
      let twice := 2 * (s.1 % s.2)
      if twice < s.2 ∨ twice = s.2 ∧ low.digits % 2 = 0 then some low else some high
    else some low
  else if readsBack x high then some high
  else none

/-- The shortest decimal that reads back as a positive finite double. -/
def shortest (x : Float) : Decimal :=
  ((List.range 17).findSome? fun i => gridPoint? x (i + 1)).getD ⟨0, 0⟩

/-- A point that a grid offers reads back. -/
theorem readsBack_of_gridPoint? {x : Float} {n : Nat} {d : Decimal}
    (h : gridPoint? x n = some d) : readsBack x d = true := by
  simp only [gridPoint?] at h
  split at h <;> rename_i hl
  · split at h <;> rename_i hh
    · split at h <;> (injection h with h; subst h; assumption)
    · injection h with h; subst h; exact hl
  · split at h <;> rename_i hh
    · injection h with h; subst h; exact hh
    · simp at h

/-- How the digits of a number are laid out. -/
structure Layout where
  /-- The least power of ten of a leading digit in positional notation. -/
  leastPositional : Int
  /-- The first power of ten of a leading digit that is beyond positional notation. -/
  pastPositional : Int
  /-- The least number of digits of an exponent. -/
  exponentDigits : Nat

/-- Positional notation runs from a ten-thousandth up to sixteen digits, and an exponent has two
digits or more. -/
def floatLayout : Layout := ⟨-4, 16, 2⟩

/-- The significant digits of a decimal number with the power of ten of the first. -/
def Decimal.significant (d : Decimal) : List Char × Int :=
  let all := Nat.toDigits 10 d.digits
  let ds := (all.reverse.dropWhile (· == '0')).reverse
  (ds, d.exponent + all.length - 1)

/-- Digits in positional notation, with at least one digit on each side of the point. -/
def positional (ds : List Char) (lead : Int) : List Char :=
  if lead < 0 then
    '0' :: '.' :: (List.replicate (lead.natAbs - 1) '0' ++ ds)
  else
    let n := lead.toNat + 1
    let whole := ds.take n ++ List.replicate (n - ds.length) '0'
    let rest := ds.drop n
    whole ++ '.' :: (if rest.isEmpty then ['0'] else rest)

/-- Digits in scientific notation, with a point only if a digit follows it. -/
def scientific (width : Nat) (ds : List Char) (lead : Int) : List Char :=
  let es := Nat.toDigits 10 lead.natAbs
  let mantissa := match ds with
    | d :: rest => if rest.isEmpty then [d] else d :: '.' :: rest
    | [] => []
  mantissa ++ 'e' :: (if lead < 0 then '-' else '+') ::
    (List.replicate (width - es.length) '0' ++ es)

/-- A positive decimal number in the notation that a layout prescribes. -/
def Layout.render (l : Layout) (d : Decimal) : List Char :=
  let s := d.significant
  if l.leastPositional ≤ s.2 ∧ s.2 < l.pastPositional then positional s.1 s.2
  else scientific l.exponentDigits s.1 s.2

/-- Whether the sign bit of a double is set. -/
def signBit (x : Float) : Bool := decide (Nat.pow 2 63 ≤ x.toBits.toNat)

/-- A double as text. -/
def floatText (x : Float) : String :=
  if x.isNaN then "nan"
  else
    let sign := if signBit x then ['-'] else []
    let magnitude :=
      if x.isInf then ['i', 'n', 'f']
      else if x == 0.0 then ['0', '.', '0']
      else floatLayout.render (shortest x.abs)
    String.ofList (sign ++ magnitude)

end Reckoner
