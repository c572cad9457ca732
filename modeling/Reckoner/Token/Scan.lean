import Reckoner.Fault

/-!
# Cutting a source into tokens

The front of a text decides what stands there: a blank, a sign, a name, a numeral, or nothing that
starts a token. Names and numerals are as long as they can be. Scanning walks over the characters
with their offsets; the characters of a token after its first are skipped, so that the walk is over
the text itself. The first fault in source order ends it.
-/

namespace Reckoner

open Text

/-- The blanks between tokens: space, tab, carriage return, line feed, vertical tab, form feed. -/
def isGap (c : Char) : Bool :=
  c == ' ' || c == '\t' || c == '\r' || c == '\n' || c == '\x0b' || c == '\x0c'

/-- Whether a character can stand in a name after its first letter. -/
def isNameChar (c : Char) : Bool := c.isAlpha || c.isDigit || c == '_'

/-- The lexeme that a single sign makes. -/
def signLexeme? : Char → Option Lexeme
  | '+' => some .plus
  | '-' => some .minus
  | '*' => some .times
  | '/' => some .divide
  | '%' => some .modulo
  | '^' => some .power
  | '(' => some .lparen
  | ')' => some .rparen
  | ',' => some .comma
  | _ => none

/-- What stands at the front of a text. -/
inductive Front where
  /-- A blank between tokens. -/
  | gap
  /-- A sign. -/
  | sign (l : Lexeme)
  /-- A name. -/
  | name (cs : List Char)
  /-- A numeral. -/
  | numeral (n : Numeral)
  deriving DecidableEq

namespace Front

/-- What stands at the front of a text that begins with a given character, if that character is a
blank or starts a token. -/
def ofCons? (c : Char) (cs : List Char) : Option Front :=
  match Numeral.take (c :: cs) with
  | some (n, _) => some (numeral n)
  | none =>
    if c.isAlpha then some (name (c :: cs.takeWhile isNameChar))
    else match signLexeme? c with
      | some l => some (sign l)
      | none => if isGap c then some gap else none

/-- The number of characters of a front. -/
def length : Front → Nat
  | gap => 1
  | sign _ => 1
  | name cs => cs.length
  | numeral n => n.text.length

end Front

/-- The most digits that an integer literal may have, leading zeros included. -/
def integerDigitLimit : Nat := 4300

/-- The value of a numeral: a double if it has a point or an exponent, else an integer, which must
be within its bounds. -/
def Numeral.toValue (n : Numeral) : Except Cause Value :=
  if n.isWhole then
    let count := n.whole.length
    if integerDigitLimit < count then
      .error (.invalidNumber (String.ofList n.text)
        (Cause.tooManyDigitsReason integerDigitLimit count))
    else match Integer.ofInt? (natOfDigits n.whole) with
      | some i => .ok (.integer i)
      | none => .error (.invalidNumber (String.ofList n.text) Cause.outOfRangeReason)
  else .ok (.float n.value.toFloat)

/-- The token of a front at an offset; a blank makes none. -/
def Front.toToken (f : Front) (pos : Nat) : Except Fault (Option Token) :=
  let span : Span := ⟨pos, pos + f.length⟩
  match f with
  | .gap => .ok none
  | .sign l => .ok (some ⟨l, span⟩)
  | .name cs => .ok (some ⟨.identifier (some (String.ofList cs)), span⟩)
  | .numeral n =>
    match n.toValue with
    | .ok v => .ok (some ⟨.number (some v), span⟩)
    | .error c => .error ⟨c, span⟩

/-- Cut the rest of a source into tokens. `skip` characters of the rest belong to the token before
it, and `pos` is the offset of the rest. -/
def scanFrom : (cs : List Char) → (skip pos : Nat) → Except Fault (List Token)
  | [], _, pos => .ok [⟨.eof, ⟨pos, pos⟩⟩]
  | _ :: cs, skip + 1, pos => scanFrom cs skip (pos + 1)
  | c :: cs, 0, pos =>
    match Front.ofCons? c cs with
    | none => .error (Fault.invalidCharacter (String.singleton c) pos)
    | some f =>
      match f.toToken pos with
      | .error e => .error e
      | .ok t =>
        match scanFrom cs (f.length - 1) (pos + 1) with
        | .error e => .error e
        | .ok ts => .ok (t.toList ++ ts)

/-- Skipped characters only move the offset. -/
theorem scanFrom_append (cs rest : List Char) (pos : Nat) :
    scanFrom (cs ++ rest) cs.length pos = scanFrom rest 0 (pos + cs.length) := by
  induction cs generalizing pos with
  | nil => rfl
  | cons c cs ih =>
    simp only [List.cons_append, List.length_cons, scanFrom, ih]
    congr 1
    omega

/-- Cut a source into tokens, the last of which is the end of the input. -/
def scan (source : String) : Except Fault (List Token) := scanFrom source.toList 0 0

end Reckoner
