import Reckoner.Text.Classes
import Reckoner.Value

/-!
# Reading an expression from a stream

An expression is the whole content of a stream without the line ends at its end. One character more
than the limit is read, and if there is one the input is refused. The number of characters to read
has to be a 64-bit integer.
-/

namespace Reckoner

/-- Why no expression is read. -/
inductive InputError where
  /-- There are more characters than the limit. -/
  | tooLarge (limit : Int)
  /-- The limit is beyond any number of characters. -/
  | unboundedLimit
  /-- The stream cannot be read. -/
  | unreadable
  deriving DecidableEq

/-- The wording of an input error. -/
def InputError.message : InputError → String
  | tooLarge limit => "input exceeds " ++ toString limit ++ " characters"
  | unboundedLimit => "cannot fit 'int' into an index-sized integer"
  | unreadable => "cannot read the input"

/-- Read some characters of a stream, all of them if the number is negative, and give what was read
and what remains. -/
def readChars (count : Int) (stream : List Char) : List Char × List Char :=
  if count < 0 then (stream, []) else (stream.take count.toNat, stream.drop count.toNat)

/-- Reading loses nothing. -/
theorem readChars_append (count : Int) (stream : List Char) :
    (readChars count stream).1 ++ (readChars count stream).2 = stream := by
  unfold readChars
  split <;> simp

/-- The expression in a stream, or why there is none, and what remains of the stream. -/
def readExpression (limit : Int) (stream : List Char) : Except InputError String × List Char :=
  if fitsInteger (limit + 1) then
    let r := readChars (limit + 1) stream
    if limit < r.1.length then (.error (.tooLarge limit), r.2)
    else (.ok (String.ofList (Text.trimEnd Text.isLineEnd r.1)), r.2)
  else (.error .unboundedLimit, stream)

end Reckoner
