import Mathlib.Data.Nat.Digits.Defs
import Reckoner.Number.Reading
import Reckoner.Proofs.Scanning.Numerals
import Reckoner.Token

/-!
# The texts of tokens

Which texts stand for a token is stated here without a scanner: numerals, names and single signs
are lexical, and a token that is written as such a text carries what the text says. A text leads a
source if it is the longest lexical text at its front. All of these texts are ASCII.
-/

namespace Reckoner

/-- The characters of a source that a span covers. -/
def Span.text (s : Span) (source : List Char) : List Char :=
  (source.take s.stop.toNat).drop s.start.toNat

/-- The blanks between tokens: space, tab, carriage return, line feed, vertical tab, form feed. -/
def IsBlank (c : Char) : Prop := c ∈ [' ', '\t', '\r', '\n', '\x0b', '\x0c']

instance (c : Char) : Decidable (IsBlank c) := inferInstanceAs (Decidable (_ ∈ _))

/-- A numeral: digits around an optional point, and an optional exponent. -/
def IsNumeral (cs : List Char) : Prop := ∃ n : Numeral, n.WellFormed ∧ n.text = cs

/-- A numeral without point and exponent: digits, at least one. -/
def IsWhole (cs : List Char) : Prop := cs ≠ [] ∧ ∀ c ∈ cs, c.isDigit = true

/-- A name: a letter, and then letters, digits and underscores. -/
def IsName (cs : List Char) : Prop :=
  ∃ c r, cs = c :: r ∧ c.isAlpha = true ∧
    ∀ x ∈ r, x.isAlpha = true ∨ x.isDigit = true ∨ x = '_'

/-- The sign that a lexeme is written as. -/
def Lexeme.sign? : Lexeme → Option Char
  | .plus => some '+'
  | .minus => some '-'
  | .times => some '*'
  | .divide => some '/'
  | .modulo => some '%'
  | .power => some '^'
  | .lparen => some '('
  | .rparen => some ')'
  | .comma => some ','
  | .number _ | .identifier _ | .eof => none

/-- A sign that is a token on its own. -/
def IsSign (cs : List Char) : Prop := ∃ (l : Lexeme) (c : Char), l.sign? = some c ∧ cs = [c]

/-- A text of one of the kinds of tokens. -/
def IsLexical (cs : List Char) : Prop := IsNumeral cs ∨ IsName cs ∨ IsSign cs

/-- The number that digits write in the decimal system. -/
def decimalValue (ds : List Char) : Nat := Nat.ofDigits 10 (ds.reverse.map fun c => c.toNat - 48)

/-- A lexeme is written as a text, and carries the value or the name that the text says. -/
inductive Writes : Lexeme → List Char → Prop where
  /-- A sign. -/
  | sign {l : Lexeme} {c : Char} (h : l.sign? = some c) : Writes l [c]
  /-- A name carries its text. -/
  | name {cs : List Char} (h : IsName cs) : Writes (.identifier (some (String.ofList cs))) cs
  /-- A numeral without point and exponent carries the integer that its digits write, leading zeros
  included; there are not too many of them. -/
  | whole {cs : List Char} (h : IsWhole cs) (hlimit : cs.length ≤ 4300) {i : Integer}
      (hi : i.val = decimalValue cs) : Writes (.number (some (.integer i))) cs
  /-- A numeral with a point or an exponent carries the double that it is read as. -/
  | float {cs : List Char} (h : IsNumeral cs) (hc : '.' ∈ cs ∨ 'e' ∈ cs ∨ 'E' ∈ cs) {x : Float}
      (hx : readFreeFloat? (String.ofList cs) = some x) : Writes (.number (some (.float x))) cs

/-- The longest lexical text at the front of a source. -/
structure Leads (text source : List Char) : Prop where
  /-- The source starts with the text. -/
  front : text <+: source
  /-- The text is one of a token. -/
  lexical : IsLexical text
  /-- No longer text at the front is one of a token. -/
  longest : ∀ other, other <+: source → IsLexical other → other.length ≤ text.length

/-- Digits are a numeral. -/
theorem IsWhole.isNumeral {cs : List Char} (h : IsWhole cs) : IsNumeral cs :=
  ⟨⟨cs, none, none⟩, ⟨List.all_eq_true.mpr h.2, nofun, .inl h.1, nofun⟩,
    by simp [Numeral.text, Numeral.mantissa]⟩

/-- What a lexeme is written as is lexical. -/
theorem Writes.lexical {l : Lexeme} {cs : List Char} (h : Writes l cs) : IsLexical cs := by
  cases h with
  | sign h => exact .inr (.inr ⟨_, _, h, rfl⟩)
  | name h => exact .inr (.inl h)
  | whole h _ _ => exact .inl h.isNumeral
  | float h _ _ => exact .inl h

/-- No text is written for the end of the input. -/
theorem Writes.ne_eof {l : Lexeme} {cs : List Char} (h : Writes l cs) : l ≠ .eof := by
  rintro rfl
  cases h with
  | sign h => cases h

end Reckoner
