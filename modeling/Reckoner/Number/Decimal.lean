import Reckoner.Text.Classes

/-!
# Decimal numerals

An unsigned numeral is a run of digits with an optional fraction and an optional exponent; one of
the runs around the point may be empty, and an exponent is there only if a digit follows its mark
and sign. `Numeral.take` cuts the longest numeral off the front of a text, and nothing is lost:
what it takes and what it leaves make up the text. The double nearest to a numeral is its value.
-/

namespace Reckoner

open Text

/-- The number `digits * 10 ^ exponent`. -/
structure Decimal where
  /-- All digits, read as one whole number. -/
  digits : Nat
  /-- The power of ten. -/
  exponent : Int
  deriving DecidableEq

/-- The double nearest to a decimal number, ties to even, infinite beyond the largest. -/
def Decimal.toFloat (d : Decimal) : Float :=
  Float.ofScientific d.digits (decide (d.exponent < 0)) d.exponent.natAbs

/-- The exponent of a numeral as it is written. -/
structure Exponent where
  /-- The letter `e` in either case. -/
  mark : Char
  /-- The sign, if one is written. -/
  sign : Option Char
  /-- The digits. -/
  digits : List Char
  deriving DecidableEq

/-- An exponent as text. -/
def Exponent.text (e : Exponent) : List Char := e.mark :: (e.sign.toList ++ e.digits)

/-- The power of ten that an exponent names. -/
def Exponent.value (e : Exponent) : Int :=
  if e.sign == some '-' then -natOfDigits e.digits else natOfDigits e.digits

/-- Cut a run of ASCII digits off the front of a text. -/
def takeDigits (cs : List Char) : List Char × List Char :=
  (cs.takeWhile Char.isDigit, cs.dropWhile Char.isDigit)

/-- Cutting off digits loses nothing. -/
theorem takeDigits_append (cs : List Char) : (takeDigits cs).1 ++ (takeDigits cs).2 = cs :=
  List.takeWhile_append_dropWhile

/-- Cut an optional sign off the front of a text. -/
def takeSign : List Char → Option Char × List Char
  | '+' :: cs => (some '+', cs)
  | '-' :: cs => (some '-', cs)
  | cs => (none, cs)

/-- Cutting off a sign loses nothing. -/
theorem takeSign_append (cs : List Char) : (takeSign cs).1.toList ++ (takeSign cs).2 = cs := by
  unfold takeSign
  split <;> rfl

/-- Cut an exponent off the front of a text. -/
def Exponent.take : List Char → Option (Exponent × List Char)
  | [] => none
  | c :: cs =>
    if c = 'e' ∨ c = 'E' then
      let s := takeSign cs
      let d := takeDigits s.2
      if d.1.isEmpty then none else some (⟨c, s.1, d.1⟩, d.2)
    else none

/-- Cutting off an exponent loses nothing. -/
theorem Exponent.text_append_of_take {cs rest : List Char} {e : Exponent}
    (h : Exponent.take cs = some (e, rest)) : e.text ++ rest = cs := by
  cases cs with
  | nil => simp [Exponent.take] at h
  | cons c cs =>
    simp only [Exponent.take] at h
    split at h
    · split at h
      · simp at h
      · simp only [Option.some.injEq, Prod.mk.injEq] at h
        obtain ⟨rfl, rfl⟩ := h
        simp [Exponent.text, takeDigits_append, takeSign_append]
    · simp at h

/-- An unsigned numeral as it is written. -/
structure Numeral where
  /-- The digits before the point. -/
  whole : List Char
  /-- The digits after the point, if there is a point. -/
  fraction : Option (List Char)
  /-- The exponent, if there is one. -/
  exponent : Option Exponent
  deriving DecidableEq

/-- The digits and the point of a numeral. -/
def Numeral.mantissa (n : Numeral) : List Char :=
  n.whole ++ (n.fraction.elim [] ('.' :: ·))

/-- A numeral as text. -/
def Numeral.text (n : Numeral) : List Char :=
  n.mantissa ++ n.exponent.elim [] Exponent.text

/-- Whether a numeral is written as a whole number: it has neither point nor exponent. -/
def Numeral.isWhole (n : Numeral) : Bool := n.fraction.isNone && n.exponent.isNone

/-- The number that a numeral writes. -/
def Numeral.value (n : Numeral) : Decimal :=
  let f := n.fraction.getD []
  ⟨natOfDigits (n.whole ++ f), n.exponent.elim 0 Exponent.value - f.length⟩

/-- Cut the digits and the point of a numeral off the front of a text. -/
def takeMantissa (cs : List Char) : Option ((List Char × Option (List Char)) × List Char) :=
  let w := takeDigits cs
  match w.2 with
  | '.' :: r =>
    let f := takeDigits r
    if w.1.isEmpty && f.1.isEmpty then none else some ((w.1, some f.1), f.2)
  | r => if w.1.isEmpty then none else some ((w.1, none), r)

/-- Cut the longest numeral off the front of a text. -/
def Numeral.take (cs : List Char) : Option (Numeral × List Char) :=
  match takeMantissa cs with
  | none => none
  | some ((w, f), r) =>
    match Exponent.take r with
    | none => some (⟨w, f, none⟩, r)
    | some (e, r) => some (⟨w, f, some e⟩, r)

/-- Cutting off digits and point loses nothing. -/
theorem text_append_of_takeMantissa {cs w r : List Char} {f : Option (List Char)}
    (h : takeMantissa cs = some ((w, f), r)) : w ++ f.elim [] ('.' :: ·) ++ r = cs := by
  have hw := takeDigits_append cs
  simp only [takeMantissa] at h
  split at h
  · rename_i r' hr
    split at h
    · simp at h
    · simp only [Option.some.injEq, Prod.mk.injEq] at h
      obtain ⟨⟨rfl, rfl⟩, rfl⟩ := h
      have hf := takeDigits_append r'
      rw [hr] at hw
      simpa [hf] using hw
  · split at h
    · simp at h
    · simp only [Option.some.injEq, Prod.mk.injEq] at h
      obtain ⟨⟨rfl, rfl⟩, rfl⟩ := h
      simpa using hw

/-- Cutting off a numeral loses nothing. -/
theorem Numeral.text_append_of_take {cs rest : List Char} {n : Numeral}
    (h : Numeral.take cs = some (n, rest)) : n.text ++ rest = cs := by
  unfold Numeral.take at h
  split at h
  · simp at h
  · rename_i w f r hm
    have hm := text_append_of_takeMantissa hm
    split at h
    · simp only [Option.some.injEq, Prod.mk.injEq] at h
      obtain ⟨rfl, rfl⟩ := h
      simpa [Numeral.text, Numeral.mantissa] using hm
    · rename_i e r' he
      have he := Exponent.text_append_of_take he
      simp only [Option.some.injEq, Prod.mk.injEq] at h
      obtain ⟨rfl, rfl⟩ := h
      subst he
      simpa [Numeral.text, Numeral.mantissa] using hm

/-- Read a text that is one numeral and no more. -/
def Numeral.ofText? (cs : List Char) : Option Numeral :=
  match Numeral.take cs with
  | some (n, []) => some n
  | _ => none

end Reckoner
