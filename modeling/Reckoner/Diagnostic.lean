import Reckoner.Fault
import Reckoner.Text.Classes

/-!
# Faults in their source

An offset of a source lies on a line and in a column, both counted from one; offsets outside the
source are moved to its nearest end. A diagnostic names the place of a fault, repeats its line and
puts carets under the part of the span that is on that line. Tabs before the carets are kept, so
that they line up.
-/

namespace Reckoner

open Text

/-- The place of an offset in a source. -/
structure Location where
  /-- The line, counted from one. -/
  line : Nat
  /-- The column, counted from one. -/
  column : Nat
  /-- The characters of the line, without carriage returns at its end. -/
  text : List Char
  deriving DecidableEq

/-- An offset moved into a source of a given length. -/
def clampOffset (length : Nat) (offset : Int) : Nat := min offset.toNat length

/-- The place of the offset `o` in a text whose line began `column - 1` characters before. -/
def locateFrom (line : Nat) (before : List Char) : List Char → Nat → Location
  | '\n' :: cs, o + 1 => locateFrom (line + 1) [] cs o
  | c :: cs, o + 1 => locateFrom line (c :: before) cs o
  | cs, _ =>
    ⟨line, before.length + 1, trimEnd (· == '\r') (before.reverse ++ cs.takeWhile (· != '\n'))⟩

/-- The place of an offset in a source. -/
def locate (source : List Char) (offset : Int) : Location :=
  locateFrom 1 [] source (clampOffset source.length offset)

/-- The number of carets under a span: the part of it on its line, and at least one. -/
def caretCount (span : Span) (location : Location) : Nat :=
  let lineEnd := span.start + location.text.length - location.column + 1
  (max 1 (min span.stop lineEnd - span.start)).toNat

/-- What stands before the carets: a tab under a tab, a space under anything else. -/
def caretPadding (location : Location) : List Char :=
  (location.text.take (location.column - 1)).map fun c => if c == '\t' then '\t' else ' '

/-- A fault with its place, its line and its carets. -/
def Fault.diagnostic (f : Fault) (source : String) : String :=
  let l := locate source.toList f.span.start
  "line " ++ toString l.line ++ ", column " ++ toString l.column ++ ": " ++ f.message ++ "\n" ++
    String.ofList l.text ++ "\n" ++
    String.ofList (caretPadding l ++ List.replicate (caretCount f.span l) '^')

/-- An offset within the source is not moved. -/
theorem clampOffset_natCast {length offset : Nat} (h : offset ≤ length) :
    clampOffset length offset = offset := by
  simp [clampOffset, h]

end Reckoner
