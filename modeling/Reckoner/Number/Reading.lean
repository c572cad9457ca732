import Reckoner.Number.Decimal
import Reckoner.Text.Classes

/-!
# Numbers in running text

Two forms of numbers are read, both with white space around the number. The free form allows digits
of any script and single underscores between digits. The plain form allows ASCII digits, and
underscores anywhere but at an end or next to each other; a whole number in plain form may end in a
point and zeros.
-/

namespace Reckoner

open Text

/-- The number of a sign. -/
def signValue (sign : Option Char) : Int := if sign == some '-' then -1 else 1

/-- A double without a decimal numeral: infinite or not a number, in either case of letters. -/
def specialFloat? (cs : List Char) : Option Float :=
  let s := String.ofList (cs.map Char.toLower)
  if s == "inf" || s == "infinity" then some (1.0 / 0.0)
  else if s == "nan" then some (0.0 / 0.0)
  else none

/-- Read a double: a numeral or a special value after an optional sign. -/
def readFloat? (cs : List Char) : Option Float :=
  let s := takeSign cs
  let magnitude : Option Float :=
    match specialFloat? s.2 with
    | some x => some x
    | none => (Numeral.ofText? s.2).map fun n : Numeral => n.value.toFloat
  magnitude.map fun x => if s.1 == some '-' then -x else x

/-- Read a whole number: digits after an optional sign. -/
def readInt? (cs : List Char) : Option Int :=
  let s := takeSign cs
  if s.2.isEmpty || !s.2.all Char.isDigit then none
  else some (signValue s.1 * natOfDigits s.2)

/-- Drop the underscores, each of which has to stand between two digits. -/
def joinDigits? : List Char → Option (List Char)
  | [] => some []
  | '_' :: _ => none
  | c :: '_' :: d :: cs =>
    if c.isDigit && d.isDigit then (joinDigits? (d :: cs)).map (c :: ·) else none
  | c :: cs => (joinDigits? cs).map (c :: ·)

/-- The free form with plain digits and without white space around it. -/
def plainDigits (cs : List Char) : List Char :=
  (trimBoth isWhiteSpace cs).map fun c => ((digitValue? c).map fun n => Char.ofNat (48 + n)).getD c

/-- Read a whole number in free form. -/
def readFreeInt? (s : String) : Option Int := (joinDigits? (plainDigits s.toList)).bind readInt?

/-- Read a double in free form. -/
def readFreeFloat? (s : String) : Option Float :=
  (joinDigits? (plainDigits s.toList)).bind readFloat?

/-- Drop the underscores, none of which may stand at an end or next to another. -/
def dropUnderscores? (cs : List Char) : Option (List Char) :=
  let rec spaced : List Char → Bool
    | '_' :: '_' :: _ => false
    | ['_'] => false
    | _ :: cs => spaced cs
    | [] => true
  if cs.head? == some '_' || !spaced cs then none else some (cs.filter (· != '_'))

/-- Cut a point and the zeros after it off the end of a text. -/
def dropZeroFraction (cs : List Char) : List Char :=
  let whole := cs.takeWhile (· != '.')
  if (cs.drop (whole.length + 1)).all (· == '0') then whole else cs

/-- Read a whole number in plain form. -/
def readPlainInt? (s : String) : Option Int :=
  (dropUnderscores? (dropZeroFraction (trimBoth isWhiteSpace s.toList))).bind readInt?

/-- Read a double in plain form. -/
def readPlainFloat? (s : String) : Option Float :=
  (dropUnderscores? (trimBoth isWhiteSpace s.toList)).bind readFloat?

end Reckoner
