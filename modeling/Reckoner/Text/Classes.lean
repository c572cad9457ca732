/-!
# Classes of characters

Blanks, line ends and decimal digits of Unicode text, and trimming by a class of characters. The
separators `U+001C` to `U+001F` are blank in running text, but not white space by the Unicode
property, and a form that trims only white space keeps them. The decimal digits of Unicode 14.0 come
in runs of ten, in the order of their values, so that the code points of the zeros describe them
all.
-/

namespace Reckoner.Text

/-! ### Blanks -/

/-- The characters with the Unicode property White_Space. -/
def isWhiteSpace (c : Char) : Bool :=
  let n := c.toNat
  (9 ≤ n && n ≤ 13) || n == 32 || n == 0x85 || n == 0xA0 || n == 0x1680 ||
    (0x2000 ≤ n && n ≤ 0x200A) || n == 0x2028 || n == 0x2029 || n == 0x202F || n == 0x205F ||
    n == 0x3000

/-- The blank characters: white space and the four information separators. -/
def isBlank (c : Char) : Bool :=
  isWhiteSpace c || (0x1C ≤ c.toNat && c.toNat ≤ 0x1F)

/-- The blanks of a line: all but line feed and carriage return. -/
def isInlineBlank (c : Char) : Bool := isBlank c && c != '\n' && c != '\r'

/-- Drop the characters of a class at the end. -/
def trimEnd (p : Char → Bool) (cs : List Char) : List Char :=
  (cs.reverse.dropWhile p).reverse

/-- Drop the characters of a class at both ends. -/
def trimBoth (p : Char → Bool) (cs : List Char) : List Char :=
  trimEnd p (cs.dropWhile p)

/-- A text whose last character is outside the class is not trimmed. -/
theorem trimEnd_append_singleton {p : Char → Bool} {c : Char} (h : p c = false) (cs : List Char) :
    trimEnd p (cs ++ [c]) = cs ++ [c] := by
  simp [trimEnd, h]

/-- Trimming removes every character of the class after the last other one. -/
theorem trimEnd_append {p : Char → Bool} {ws : List Char} (h : ∀ c ∈ ws, p c = true)
    (cs : List Char) : trimEnd p (cs ++ ws) = trimEnd p cs := by
  simp only [trimEnd, List.reverse_append, List.reverse_inj]
  rw [List.dropWhile_append_of_pos]
  simpa using h

/-! ### Line ends -/

/-- Whether a character belongs to a line end: a line ends with a line feed, a carriage return, or
the one after the other. -/
def isLineEnd (c : Char) : Bool := c == '\r' || c == '\n'

/-- Replace every line end by a line feed. -/
def unifyLineEnds : List Char → List Char
  | '\r' :: '\n' :: cs => '\n' :: unifyLineEnds cs
  | '\r' :: cs => '\n' :: unifyLineEnds cs
  | c :: cs => c :: unifyLineEnds cs
  | [] => []

/-! ### Decimal digits -/

/-- The code points of the digits zero of all scripts, in increasing order. -/
def zeroDigits : List Nat :=
  [48, 1632, 1776, 1984, 2406, 2534, 2662, 2790, 2918, 3046, 3174, 3302, 3430, 3558, 3664, 3792,
   3872, 4160, 4240, 6112, 6160, 6470, 6608, 6784, 6800, 6992, 7088, 7232, 7248, 42528, 43216,
   43264, 43472, 43504, 43600, 44016, 65296, 66720, 68912, 69734, 69872, 69942, 70096, 70384,
   70736, 70864, 71248, 71360, 71472, 71904, 72016, 72784, 73040, 73120, 92768, 92864, 93008,
   120782, 120792, 120802, 120812, 120822, 123200, 123632, 125264, 130032]

/-- The value of a decimal digit of any script. -/
def digitValue? (c : Char) : Option Nat :=
  if c.isDigit then some (c.toNat - 48)
  else if c.toNat < 128 then none
  else (zeroDigits.find? fun z => z ≤ c.toNat && c.toNat < z + 10).map (c.toNat - ·)

/-- Whether a character is a decimal digit of any script. -/
def isDecimalDigit (c : Char) : Bool := (digitValue? c).isSome

/-- An ASCII digit has the value that its place after `0` says. -/
theorem digitValue?_of_isDigit {c : Char} (h : c.isDigit = true) :
    digitValue? c = some (c.toNat - 48) := by
  simp [digitValue?, h]

/-- The number that a sequence of ASCII digits writes, read from the left. -/
def natOfDigits (ds : List Char) : Nat :=
  ds.foldl (fun n c => 10 * n + (c.toNat - 48)) 0

/-- A further digit multiplies by ten and adds its value. -/
theorem natOfDigits_append_singleton (ds : List Char) (c : Char) :
    natOfDigits (ds ++ [c]) = 10 * natOfDigits ds + (c.toNat - 48) := by
  simp [natOfDigits]

end Reckoner.Text
