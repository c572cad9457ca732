import Reckoner.Scalar
import Reckoner.Text.Classes

/-!
# Message templates

A template is a text with directives. A directive starts with a percent sign, may have flags, a
width and a precision, and ends with a letter that says how the next argument is written. Two
percent signs stand for one. A star in place of a width or a precision takes it from the arguments.
The directives take the arguments in order, and all arguments have to be taken. If the arguments
have names, a directive begins with a name in parentheses, and the argument of that name is the only
one that is left to take.
-/

namespace Reckoner.Template

open Text

/-- Why a template cannot be filled. -/
inductive Misfit where
  /-- There are more directives than arguments. -/
  | tooFew
  /-- There are more arguments than directives. -/
  | tooMany
  /-- An argument is not a number. -/
  | notANumber (letter : Char) (given : Scalar)
  /-- An argument is not a whole number. -/
  | notAnInteger (letter : Char) (given : Scalar)
  /-- An argument cannot be turned into a double. -/
  | notAFloat (given : Scalar)
  /-- An argument is not a character. -/
  | notAChar
  /-- A star takes an argument that is not a whole number. -/
  | notAnExtent
  /-- A number is beyond the characters. -/
  | beyondChars
  /-- A double that is not finite was to be written as a whole number. -/
  | notFinite (given : Float)
  /-- A directive asks for a named argument. -/
  | named
  /-- No argument has this name. -/
  | unknownName (name : String)
  /-- The name of an argument has no end. -/
  | incompleteName
  /-- A directive has no letter. -/
  | incomplete
  /-- No directive has this letter. -/
  | unknownLetter (letter : Char) (index : Nat)
  deriving DecidableEq

/-- The wording of a misfit. -/
def Misfit.message : Misfit → String
  | tooFew => "not enough arguments for format string"
  | tooMany => "not all arguments converted during string formatting"
  | notANumber c s =>
    "%" ++ c.toString ++ " format: a real number is required, not " ++ s.typeName
  | notAnInteger c s => "%" ++ c.toString ++ " format: an integer is required, not " ++ s.typeName
  | notAFloat s => "must be real number, not " ++ s.typeName
  | notAChar => "%c requires int or char"
  | notAnExtent => "* wants int"
  | beyondChars => "%c arg not in range(0x110000)"
  | notFinite x =>
    if x.isNaN then "cannot convert float NaN to integer"
    else "cannot convert float infinity to integer"
  | named => "format requires a mapping"
  | unknownName name => quoted name
  | incompleteName => "incomplete format key"
  | incomplete => "incomplete format"
  | unknownLetter c i =>
    "unsupported format character '" ++ (if c.toNat < 128 && isPrintable c then c.toString else "?")
      ++ "' (0x" ++ String.ofList (hexDigits 0 c.toNat) ++ ") at index " ++ toString i

/-- How a directive writes its argument. -/
structure Directive where
  /-- Pad on the right. -/
  left : Bool
  /-- Write a plus sign before a number that is not negative. -/
  plus : Bool
  /-- Write a space before a number that is not negative. -/
  space : Bool
  /-- Pad a number with zeros after its sign. -/
  zero : Bool
  /-- Write the base before a number that is not decimal. -/
  based : Bool
  /-- The least number of characters. -/
  width : Nat
  /-- The precision, if one is given. -/
  precision : Option Nat
  /-- The letter. -/
  letter : Char

/-- A number as text before padding: its sign, the mark of its base, and its digits. -/
structure Figure where
  /-- Whether the number is negative. -/
  negative : Bool
  /-- The mark of the base. -/
  base : List Char
  /-- The digits. -/
  digits : List Char

/-- Pad a text with spaces. -/
def Directive.pad (d : Directive) (cs : List Char) : List Char :=
  let gap := List.replicate (d.width - cs.length) ' '
  if d.left then cs ++ gap else gap ++ cs

/-- Write a number with its sign and padding. -/
def Directive.number (d : Directive) (f : Figure) : List Char :=
  let sign := if f.negative then ['-'] else if d.plus then ['+'] else if d.space then [' '] else []
  let head := sign ++ f.base
  let zeros := if d.zero && !d.left then
      List.replicate (d.width - (head.length + f.digits.length)) '0'
    else []
  d.pad (head ++ zeros ++ f.digits)

/-- A whole number in a base. -/
def Directive.whole (d : Directive) (n : Int) (base : Nat) (mark : List Char) : List Char :=
  let digits := Nat.toDigits base n.natAbs
  let padded := List.replicate (d.precision.getD 0 - digits.length) '0' ++ digits
  d.number ⟨decide (n < 0), if d.based then mark else [], padded⟩

/-- Round a ratio to the nearest whole number, ties to even. -/
def roundRatio (num den : Nat) : Nat :=
  let q := num / den
  let twice := 2 * (num % den)
  if twice < den ∨ twice = den ∧ q % 2 = 0 then q else q + 1

/-- A magnitude with a fixed number of digits after the point. -/
def fixedDigits (r : Nat × Nat) (places : Nat) : List Char :=
  let all := Nat.toDigits 10 (roundRatio (r.1 * Nat.pow 10 places) r.2)
  let padded := List.replicate (places + 1 - all.length) '0' ++ all
  let whole := padded.take (padded.length - places)
  if places = 0 then whole else whole ++ '.' :: padded.drop (padded.length - places)

/-- The digits of a magnitude to a number of significant places, and its power of ten. -/
def significantDigits (r : Nat × Nat) (places : Nat) : List Char × Int :=
  if r.1 = 0 then (List.replicate places '0', 0)
  else
    let k := leadingExponent r
    let s := scaleRatio r (places - 1 - k)
    let all := Nat.toDigits 10 (roundRatio s.1 s.2)
    if places < all.length then (all.take places, k + 1) else (all, k)

/-- A magnitude in scientific notation. -/
def scientificDigits (r : Nat × Nat) (places : Nat) : List Char :=
  let s := significantDigits r (places + 1)
  scientific 2 s.1 s.2

/-- Drop the zeros at the end of a fraction, and the point if nothing remains after it. -/
def dropTrailingZeros (cs : List Char) : List Char :=
  if cs.contains '.' then trimEnd (· == '.') (trimEnd (· == '0') cs) else cs

/-- A magnitude in the shorter of the two notations. -/
def generalDigits (r : Nat × Nat) (places : Nat) (keep : Bool) : List Char :=
  let p := if places = 0 then 1 else places
  let s := significantDigits r p
  let drop (cs : List Char) := if keep then cs else dropTrailingZeros cs
  if -4 ≤ s.2 ∧ s.2 < p then drop (fixedDigits r (p - 1 - s.2).toNat)
  else
    let ds := if keep then s.1 else
      match trimEnd (· == '0') s.1 with
      | [] => ['0']
      | ds => ds
    scientific 2 ds s.2

/-- Put a point behind the digits before an exponent, unless there is a point. -/
def keepPoint (cs : List Char) : List Char :=
  if cs.contains '.' then cs
  else cs.takeWhile (· != 'e') ++ '.' :: cs.dropWhile (· != 'e')

/-- A double by the letter of a directive. -/
def Directive.float (d : Directive) (x : Float) : List Char :=
  let places := d.precision.getD 6
  let digits :=
    if x.isNaN then ['n', 'a', 'n']
    else if x.isInf then ['i', 'n', 'f']
    else
      let plain := match d.letter.toLower with
        | 'e' => scientificDigits (exactMagnitude x) places
        | 'g' => generalDigits (exactMagnitude x) places d.based
        | _ => fixedDigits (exactMagnitude x) places
      if d.based then keepPoint plain else plain
  let cased := if d.letter.isUpper then digits.map Char.toUpper else digits
  d.number ⟨signBit x && !x.isNaN, [], cased⟩

/-- A scalar as a whole number, a double truncated toward zero. -/
def truncated (letter : Char) (s : Scalar) : Except Misfit Int :=
  match s with
  | .int n => .ok n
  | .bool b => .ok (if b then 1 else 0)
  | .float x =>
    if x.isFinite then
      let r := exactMagnitude x
      .ok (if signBit x then -(r.1 / r.2 : Nat) else (r.1 / r.2 : Nat))
    else .error (.notFinite x)
  | s => .error (.notANumber letter s)

/-- A scalar that is a whole number. -/
def exactly (letter : Char) (s : Scalar) : Except Misfit Int :=
  match s with
  | .int n => .ok n
  | .bool b => .ok (if b then 1 else 0)
  | s => .error (.notAnInteger letter s)

/-- A scalar as a character: a number stands for its code point. -/
def character (s : Scalar) : Except Misfit Char :=
  let ofInt (n : Int) : Except Misfit Char :=
    if 0 ≤ n ∧ n < 0x110000 then .ok (Char.ofNat n.toNat) else .error .beyondChars
  match s with
  | .int n => ofInt n
  | .bool b => ofInt (if b then 1 else 0)
  | .text t =>
    match t.toList with
    | [c] => .ok c
    | _ => .error .notAChar
  | _ => .error .notAChar

/-- A scalar as a double. -/
def real (s : Scalar) : Except Misfit Float :=
  match s with
  | .int n => .ok (Float.ofInt n)
  | .bool b => .ok (if b then 1.0 else 0.0)
  | .float x => .ok x
  | s => .error (.notAFloat s)

/-- A text cut to the precision. -/
def Directive.cut (d : Directive) (cs : List Char) : List Char :=
  match d.precision with
  | some n => cs.take n
  | none => cs

/-- A text of ASCII characters: every other one by the digits of its code point. -/
def asciiOnly (cs : List Char) : List Char :=
  cs.flatMap fun c =>
    if c.toNat < 0x80 then [c]
    else if c.toNat < 0x100 then '\\' :: 'x' :: hexDigits 2 c.toNat
    else if c.toNat < 0x10000 then '\\' :: 'u' :: hexDigits 4 c.toNat
    else '\\' :: 'U' :: hexDigits 8 c.toNat

/-- Write an argument by a directive that stands at an index of the template. -/
def Directive.write (d : Directive) (index : Nat) (s : Scalar) : Except Misfit (List Char) :=
  match d.letter with
  | 's' => .ok (d.pad (d.cut s.plain.toList))
  | 'r' => .ok (d.pad (d.cut s.shown.toList))
  | 'a' => .ok (d.pad (d.cut (asciiOnly s.shown.toList)))
  | 'd' | 'i' | 'u' => (truncated d.letter s).map fun n => d.whole n 10 []
  | 'o' => (exactly d.letter s).map fun n => d.whole n 8 ['0', 'o']
  | 'x' => (exactly d.letter s).map fun n => d.whole n 16 ['0', 'x']
  | 'X' => (exactly d.letter s).map fun n => (d.whole n 16 ['0', 'x']).map Char.toUpper
  | 'e' | 'E' | 'f' | 'F' | 'g' | 'G' => (real s).map d.float
  | 'c' => (character s).map fun c => d.pad [c]
  | c => .error (.unknownLetter c index)

/-- A width or a precision: digits, or a star that takes the next argument. -/
def readExtent (cs : List Char) (args : List Scalar) :
    Except Misfit (Int × List Char × List Scalar) :=
  match cs, args with
  | '*' :: _, [] => .error .tooFew
  | '*' :: cs, .int n :: args => .ok (n, cs, args)
  | '*' :: cs, .bool b :: args => .ok (if b then 1 else 0, cs, args)
  | '*' :: _, _ :: _ => .error .notAnExtent
  | cs, args => .ok (natOfDigits (takeDigits cs).1, (takeDigits cs).2, args)

/-- The precision of a directive, if one is given. -/
def readPrecision (cs : List Char) (args : List Scalar) :
    Except Misfit (Option Nat × List Char × List Scalar) :=
  match cs with
  | '.' :: cs => (readExtent cs args).map fun (n, cs, args) => (some n.toNat, cs, args)
  | cs => .ok (none, cs, args)

/-- Drop the mark of a size, which says nothing. -/
def dropSizeMark : List Char → List Char
  | 'h' :: cs | 'l' :: cs | 'L' :: cs => cs
  | cs => cs

/-- Read a directive after its percent sign, and give what follows it and the arguments that it did
not take for its width and its precision. -/
def Directive.read (cs : List Char) (args : List Scalar) :
    Except Misfit (Directive × List Char × List Scalar) :=
  let isFlag (c : Char) : Bool := c == '-' || c == '+' || c == ' ' || c == '#' || c == '0'
  let flags := cs.takeWhile isFlag
  match readExtent (cs.dropWhile isFlag) args with
  | .error e => .error e
  | .ok (width, cs, args) =>
    match readPrecision cs args with
    | .error e => .error e
    | .ok (precision, cs, args) =>
      match dropSizeMark cs with
      | [] => .error .incomplete
      | c :: cs =>
        .ok (⟨flags.contains '-' || decide (width < 0), flags.contains '+', flags.contains ' ',
          flags.contains '0', flags.contains '#', width.natAbs, precision, c⟩, cs, args)

/-- Read a name up to the parenthesis that closes it; parentheses inside it are paired. -/
def readName? (isOpen : Nat) : List Char → Option (List Char × List Char)
  | [] => none
  | ')' :: cs =>
    match isOpen with
    | 0 => some ([], cs)
    | n + 1 => (readName? n cs).map fun r => (')' :: r.1, r.2)
  | '(' :: cs => (readName? (isOpen + 1) cs).map fun r => ('(' :: r.1, r.2)
  | c :: cs => (readName? isOpen cs).map fun r => (c :: r.1, r.2)

/-- Look for a name at the start of a directive, and give what follows it and the arguments that
there are to take. -/
def takeNamed (named? : Option (List (String × Scalar))) (args : List Scalar) :
    List Char → Except Misfit (List Char × List Scalar)
  | '(' :: cs =>
    match named? with
    | none => .error .named
    | some named =>
      match readName? 0 cs with
      | none => .error .incompleteName
      | some (name, cs) =>
        match named.lookup (String.ofList name) with
        | none => .error (.unknownName (String.ofList name))
        | some a => .ok (cs, [a])
  | cs => .ok (cs, args)

/-- Fill the rest of a template of a given length, in a bounded number of steps. -/
def fillWithin (named? : Option (List (String × Scalar))) (length : Nat) :
    Nat → List Char → List Scalar → Except Misfit (List Char)
  | 0, _, _ => .ok []
  | _ + 1, [], args => if named?.isNone && !args.isEmpty then .error .tooMany else .ok []
  | fuel + 1, '%' :: '%' :: cs, args => (fillWithin named? length fuel cs args).map ('%' :: ·)
  | fuel + 1, '%' :: cs, args =>
    match takeNamed named? args cs with
    | .error e => .error e
    | .ok (cs, args) =>
      match Directive.read cs args with
      | .error e => .error e
      | .ok (_, _, []) => .error .tooFew
      | .ok (d, rest, a :: args) =>
        match d.write (length - rest.length - 1) a with
        | .error e => .error e
        | .ok t => (fillWithin named? length fuel rest args).map (t ++ ·)
  | fuel + 1, c :: cs, args => (fillWithin named? length fuel cs args).map (c :: ·)

/-- Fill a template with arguments. -/
def fill (template : String) (args : List Scalar) : Except Misfit String :=
  let cs := template.toList
  (fillWithin none cs.length (cs.length + 1) cs args).map String.ofList

/-- Fill a template with named arguments. -/
def fillNamed (template : String) (named : List (String × Scalar)) : Except Misfit String :=
  let cs := template.toList
  (fillWithin (some named) cs.length (cs.length + 1) cs []).map String.ofList

end Reckoner.Template
