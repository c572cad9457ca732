import Reckoner.Scalar

/-!
# Data lines

Named plain data on one line: an object whose fields are texts in double quotes, numbers and words.
A line that was written is read back by what the form allows. A text has only the escapes of the
form, of which a character beyond `U+FFFF` takes two, and no control character; a number has no
superfluous zero in front and a digit on both sides of its point, and without point and exponent it
is a whole number; and nothing follows the object. Blanks may stand between the parts. Strictly
read, a line has no words for doubles that are not finite, although they are written by such words.
-/

namespace Reckoner

open Text

/-! ### Writing -/

/-- A double in a data line. -/
def floatData (x : Float) : String :=
  if x.isNaN then "NaN"
  else if x.isInf then (if signBit x then "-Infinity" else "Infinity")
  else floatText x

/-- A scalar in a data line. -/
def Scalar.data : Scalar → String
  | null => "null"
  | bool true => "true"
  | bool false => "false"
  | int n => toString n
  | float x => floatData x
  | text s => escaped s

/-- Named data on one line. -/
def dataLine (fields : List (String × Scalar)) : String :=
  "\x7b" ++ String.intercalate ", " (fields.map fun f => escaped f.1 ++ ": " ++ f.2.data) ++ "\x7d"

/-! ### Reading -/

namespace Data

/-- The number of a hexadecimal digit. -/
def hexValue? (c : Char) : Option Nat :=
  if c.isDigit then some (c.toNat - 48)
  else if 'a' ≤ c ∧ c ≤ 'f' then some (c.toNat - 87)
  else if 'A' ≤ c ∧ c ≤ 'F' then some (c.toNat - 55)
  else none

/-- Read the four digits of a UTF-16 unit. -/
def readUnit? : List Char → Option (Nat × List Char)
  | a :: b :: c :: d :: cs =>
    match hexValue? a, hexValue? b, hexValue? c, hexValue? d with
    | some a, some b, some c, some d => some (4096 * a + 256 * b + 16 * c + d, cs)
    | _, _, _, _ => none
  | _ => none

/-- Read the unit that follows the first of two, after its escape mark. -/
def readSecondUnit? : List Char → Option (Nat × List Char)
  | '\\' :: 'u' :: cs => readUnit? cs
  | _ => none

/-- Read a character by its units. The first of two units and the second come from ranges of their
own, and neither stands alone. -/
def readUnits? (cs : List Char) : Option (Char × List Char) :=
  match readUnit? cs with
  | none => none
  | some (n, cs) =>
    if 0xD800 ≤ n ∧ n < 0xDC00 then
      match readSecondUnit? cs with
      | some (m, cs) =>
        if 0xDC00 ≤ m ∧ m < 0xE000 then
          some (Char.ofNat (0x10000 + (n - 0xD800) * 0x400 + (m - 0xDC00)), cs)
        else none
      | none => none
    else if 0xDC00 ≤ n ∧ n < 0xE000 then none
    else some (Char.ofNat n, cs)

/-- What a letter after a backslash stands for. -/
def letters : List (Char × Char) :=
  [('\x22', '\x22'), ('\\', '\\'), ('/', '/'), ('b', '\x08'), ('f', '\x0c'), ('n', '\n'),
    ('r', '\r'), ('t', '\t')]

/-- Read what follows a backslash. -/
def readEscape? : List Char → Option (Char × List Char)
  | 'u' :: cs => readUnits? cs
  | c :: cs => (letters.lookup c).map fun d => (d, cs)
  | [] => none

/-- Read a text up to its closing quote, as far as it has less than so many characters. -/
def readTextWithin : Nat → List Char → Option (List Char × List Char)
  | 0, _ | _, [] => none
  | _ + 1, '\x22' :: cs => some ([], cs)
  | n + 1, '\\' :: cs =>
    match readEscape? cs with
    | none => none
    | some (c, rest) => (readTextWithin n rest).map fun r => (c :: r.1, r.2)
  | n + 1, c :: cs =>
    if c.toNat < 0x20 then none else (readTextWithin n cs).map fun r => (c :: r.1, r.2)

/-- Read a text up to its closing quote. -/
def readText? (cs : List Char) : Option (List Char × List Char) := readTextWithin cs.length cs

/-- Whether a numeral has no superfluous zero in front and a digit on both sides of its point. -/
def isStrict (n : Numeral) : Bool :=
  !n.whole.isEmpty && (n.whole.head? != some '0' || n.whole.length == 1) && n.fraction != some []

/-- The number that a numeral with a sign stands for. -/
def number (isNegative : Bool) (n : Numeral) : Scalar :=
  if n.isWhole then .int (if isNegative then -natOfDigits n.whole else natOfDigits n.whole)
  else .float (if isNegative then -n.value.toFloat else n.value.toFloat)

/-- Read a number. -/
def readNumber? (cs : List Char) : Option (Scalar × List Char) :=
  let isNegative := cs.head? == some '-'
  match Numeral.take (if isNegative then cs.drop 1 else cs) with
  | none => none
  | some (n, rest) => if isStrict n then some (number isNegative n, rest) else none

/-- Read a word for a double that is not finite. -/
def readFloatWord? : List Char → Option (Scalar × List Char)
  | 'N' :: 'a' :: 'N' :: cs => some (.float (0.0 / 0.0), cs)
  | 'I' :: 'n' :: 'f' :: 'i' :: 'n' :: 'i' :: 't' :: 'y' :: cs => some (.float (1.0 / 0.0), cs)
  | '-' :: 'I' :: 'n' :: 'f' :: 'i' :: 'n' :: 'i' :: 't' :: 'y' :: cs =>
    some (.float (-1.0 / 0.0), cs)
  | _ => none

/-- Read plain data: a text, a word or a number; words for doubles that are not finite only if they
are allowed. -/
def readScalar? (floatWords : Bool) : List Char → Option (Scalar × List Char)
  | '\x22' :: cs => (readText? cs).map fun r => (.text (String.ofList r.1), r.2)
  | 'n' :: 'u' :: 'l' :: 'l' :: cs => some (.null, cs)
  | 't' :: 'r' :: 'u' :: 'e' :: cs => some (.bool true, cs)
  | 'f' :: 'a' :: 'l' :: 's' :: 'e' :: cs => some (.bool false, cs)
  | cs => (readNumber? cs).or (if floatWords then readFloatWord? cs else none)

/-- The blanks that may stand between the parts of a line. -/
def isSpacing (c : Char) : Bool := c == ' ' || c == '\t' || c == '\n' || c == '\r'

/-- Drop the blanks between the parts of a line. -/
def dropBlanks (cs : List Char) : List Char := cs.dropWhile isSpacing

/-- Read a field: its name, a colon and its data. -/
def readField? (floatWords : Bool) (cs : List Char) : Option ((String × Scalar) × List Char) :=
  match dropBlanks cs with
  | '\x22' :: cs =>
    match readText? cs with
    | none => none
    | some (name, cs) =>
      match dropBlanks cs with
      | ':' :: cs =>
        (readScalar? floatWords (dropBlanks cs)).map fun r =>
          ((String.ofList name, r.1), dropBlanks r.2)
      | _ => none
  | _ => none

/-- Read fields with commas between them, up to the closing brace at the end of the line, as far as
there are no more than so many. -/
def readFieldsWithin (floatWords : Bool) : Nat → List Char → Option (List (String × Scalar))
  | 0, _ => none
  | n + 1, cs =>
    match readField? floatWords cs with
    | some (f, ',' :: cs) => (readFieldsWithin floatWords n cs).map (f :: ·)
    | some (f, '\x7d' :: cs) => if (dropBlanks cs).isEmpty then some [f] else none
    | _ => none

/-- Read a data line: its fields in braces. -/
def readLine? (floatWords : Bool) (line : String) : Option (List (String × Scalar)) :=
  match dropBlanks line.toList with
  | '\x7b' :: cs =>
    match dropBlanks cs with
    | '\x7d' :: cs => if (dropBlanks cs).isEmpty then some [] else none
    | cs => readFieldsWithin floatWords cs.length cs
  | _ => none

end Data

end Reckoner
