import Reckoner.Text.Printable

/-!
# Quoted and escaped text

A text in quotes, on one line, in two forms. In the quoted form single quotes stand around it unless
it holds a single quote and no double quote. The quote in use and the backslash are written after a
backslash, tab, line feed and carriage return by their letters, and every other unprintable
character by the digits of its code point in the shortest of three forms.

The escaped form is in double quotes and in ASCII alone, as a data line holds it. The double quote
and the backslash stand after a backslash, five controls by their letters, and everything else
outside the printable ASCII range by the four digits of its UTF-16 units, of which a character
beyond `U+FFFF` has two.
-/

namespace Reckoner.Text

/-! ### Quoted text -/

/-- The lower-case hexadecimal digits of a number, with zeros in front up to a width. -/
def hexDigits (width n : Nat) : List Char :=
  let ds := Nat.toDigits 16 n
  List.replicate (width - ds.length) '0' ++ ds

/-- One character of a quoted text. -/
def quotedChar (quote c : Char) : List Char :=
  if c == quote || c == '\\' then ['\\', c]
  else if c == '\t' then ['\\', 't']
  else if c == '\n' then ['\\', 'n']
  else if c == '\r' then ['\\', 'r']
  else if isPrintable c then [c]
  else if c.toNat < 0x100 then '\\' :: 'x' :: hexDigits 2 c.toNat
  else if c.toNat < 0x10000 then '\\' :: 'u' :: hexDigits 4 c.toNat
  else '\\' :: 'U' :: hexDigits 8 c.toNat

/-- The quote that stands around a text. -/
def quoteFor (cs : List Char) : Char :=
  if cs.contains '\x27' && !cs.contains '\x22' then '\x22' else '\x27'

/-- A text in quotes. -/
def quoted (s : String) : String :=
  let cs := s.toList
  let q := quoteFor cs
  String.ofList (q :: cs.flatMap (quotedChar q) ++ [q])

/-- Double quotes stand only around a text that holds none. -/
theorem not_mem_of_quoteFor {cs : List Char} (h : quoteFor cs = '\x22') : '\x22' ∉ cs := by
  unfold quoteFor at h
  split at h
  · simp_all
  · exact absurd h (by decide)

/-! ### Escaped text -/

/-- One UTF-16 unit by its digits. -/
def escapedUnit (n : Nat) : List Char := '\\' :: 'u' :: hexDigits 4 n

/-- One character of an escaped text. -/
def escapedChar (c : Char) : List Char :=
  if c == '\x22' || c == '\\' then ['\\', c]
  else if c == '\n' then ['\\', 'n']
  else if c == '\r' then ['\\', 'r']
  else if c == '\t' then ['\\', 't']
  else if c == '\x0c' then ['\\', 'f']
  else if c == '\x08' then ['\\', 'b']
  else if 0x20 ≤ c.toNat && c.toNat ≤ 0x7E then [c]
  else if c.toNat < 0x10000 then escapedUnit c.toNat
  else
    let n := c.toNat - 0x10000
    escapedUnit (0xD800 + n / 0x400) ++ escapedUnit (0xDC00 + n % 0x400)

/-- A text in double quotes. -/
def escaped (s : String) : String :=
  String.ofList ('\x22' :: s.toList.flatMap escapedChar ++ ['\x22'])

end Reckoner.Text
