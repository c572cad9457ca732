import Reckoner.Expr.Arena
import Reckoner.Token.Scan

/-!
# Parsing tokens to an expression

The grammar has one rule for each level of binding, loosest first.

* A sum is a product, followed by further products after `+` or `-`.
* A product is a signed operand, followed by further ones after `*`, `/` or `%`.
* A signed operand is a power after any number of signs.
* A power is a primary, optionally with a signed operand as its exponent after `^`.
* A primary is a number, a sum in parentheses, a call, or a name that no `(` follows.
* A call is the name of a function with sums between commas in parentheses.

So powers group to the right and bind closer than the signs before them, and the other operators
group to the left. Groups, argument lists, exponents and signs nest; a chain of operators does not.
A parser reads its tokens through a cursor, and what it leaves behind when it stops can be seen: the
place of the cursor, the depth that was reached, and the nodes that were built.
-/

namespace Reckoner

/-- Why a parser stops without an expression. -/
inductive Stop where
  /-- The source is at fault. -/
  | fault (f : Fault)
  /-- The sequence of tokens does not end with the end of the input. -/
  | unterminated
  /-- There is no token at the cursor; `loaded` tells whether there are any tokens. -/
  | noToken (loaded : Bool)
  /-- A number token carries no value. -/
  | missingValue
  /-- The arena was released. -/
  | released
  /-- The bound on the number of steps was too small. -/
  | outOfFuel
  deriving DecidableEq

/-- The wording of a stop. -/
def Stop.message : Stop → String
  | fault f => f.message
  | unterminated => "token sequence must end with an EOF token"
  | noToken true => "list index out of range"
  | noToken false => "tuple index out of range"
  | missingValue => (BuildError.notAValue .null).message
  | released => BuildError.released.message
  | outOfFuel => "too many steps"

/-- What a parser works on. -/
structure Parser.State where
  /-- The tokens. -/
  tokens : Array Token
  /-- The index of the token at the cursor. -/
  pos : Nat
  /-- The number of groups, argument lists, exponents and signs that are open. -/
  depth : Int
  /-- The greatest depth that is allowed. -/
  limit : Int
  /-- The account of the nodes. -/
  arena : Arena

/-- A parser changes its state, also when it stops. -/
abbrev Parser (α : Type) : Type := EStateM Stop Parser.State α

namespace Parser

/-- A parser before its first tokens. -/
def State.initial (arena : Arena) (limit : Int) : State := ⟨#[], 0, 0, limit, arena⟩

/-- The token at the cursor. -/
def current : Parser Token := fun s =>
  match s.tokens[s.pos]? with
  | some t => .ok t s
  | none => .error (.noToken !s.tokens.isEmpty) s

/-- Move the cursor on by one token, but not past the last, and give the token it was at. -/
def advance : Parser Token := fun s =>
  match s.tokens[s.pos]? with
  | some t => .ok t (if s.pos + 1 < s.tokens.size then { s with pos := s.pos + 1 } else s)
  | none => .error (.noToken !s.tokens.isEmpty) s

/-- The token at an offset from the cursor. Past the last token it is the last one; before the first
the tokens are counted from the end. -/
def peek (offset : Int) : Parser Token := fun s =>
  let size : Int := s.tokens.size
  let i : Int := s.pos + offset
  let j := if i < size then (if i < 0 then i + size else i) else size - 1
  match if j < 0 then none else s.tokens[j.toNat]? with
  | some t => .ok t s
  | none => .error (.noToken !s.tokens.isEmpty) s

/-- Stop with a syntax fault at the token under the cursor. -/
def reject {α : Type} (cause : Lexeme → Cause) : Parser α := do
  let t ← current
  throw (.fault (t.fault cause))

/-- Open one level; one more than the limit is a fault, and the level counts all the same. -/
def enter : Parser Unit := do
  modify fun s => { s with depth := s.depth + 1 }
  let s ← get
  if s.limit < s.depth then reject (.nestingTooDeep · s.limit)

/-- Close some levels. -/
def leave (levels : Nat) : Parser Unit :=
  modify fun s => { s with depth := s.depth - levels }

/-- Count a node in the arena. -/
def allocate (e : Expr) : Parser Expr := fun s =>
  match s.arena.own (.ok e) with
  | (.ok e, a) => .ok e { s with arena := a }
  | (.error _, _) => .error .released s

/-- Close a group or an argument list. -/
def close : Parser Unit := do
  leave 1
  let t ← current
  if t.lexeme ≠ .rparen then reject .expectedRParen
  discard advance

/-- The operator of a sum that a lexeme is. -/
def sumOperator? : Lexeme → Option BinaryOp
  | .plus => some .add
  | .minus => some .sub
  | _ => none

/-- The operator of a product that a lexeme is. -/
def productOperator? : Lexeme → Option BinaryOp
  | .times => some .mul
  | .divide => some .div
  | .modulo => some .mod
  | _ => none

/-- The sign that a lexeme is. -/
def signOf? : Lexeme → Option Sign
  | .plus => some .pos
  | .minus => some .neg
  | _ => none

/-- Read signs, each of which opens a level, and put them before those read already, so that the
one closest to the operand comes first. -/
def signs : Nat → List (Sign × Span) → Parser (List (Sign × Span))
  | 0, _ => throw .outOfFuel
  | fuel + 1, read => do
    let t ← current
    match signOf? t.lexeme with
    | none => pure read
    | some s => do
      enter
      let t ← advance
      signs fuel ((s, t.span) :: read)

/-- Put an operand under signs, the first of them innermost. -/
def underSigns : List (Sign × Span) → Expr → Parser Expr
  | [], e => pure e
  | (s, span) :: rest, e => do
    let e ← allocate (.signed s e span)
    underSigns rest e

/-- What is to be read next. -/
inductive Rule where
  /-- A sum. -/
  | sum
  /-- What follows the first part of a sum. -/
  | sumAfter (left : Expr)
  /-- A product. -/
  | product
  /-- What follows the first part of a product. -/
  | productAfter (left : Expr)
  /-- A power after any number of signs. -/
  | signed
  /-- A primary with an optional exponent. -/
  | power
  /-- A number, a group, a call or a name. -/
  | primary
  /-- A sum in parentheses. -/
  | group
  /-- A call. -/
  | call
  /-- The rest of the arguments of a call, of which some were read, the last of them first. -/
  | arguments (function : Function) (span : Span) (read : List Expr)

/-- Read what a rule describes, in a bounded number of steps. -/
def Rule.readWithin : Nat → Rule → Parser Expr
  | 0, _ => throw .outOfFuel
  | fuel + 1, .sum => do
    let left ← readWithin fuel .product
    readWithin fuel (.sumAfter left)
  | fuel + 1, .sumAfter left => do
    let t ← current
    match sumOperator? t.lexeme with
    | none => pure left
    | some op => do
      discard advance
      let right ← readWithin fuel .product
      let e ← allocate (.binary op left right t.span)
      readWithin fuel (.sumAfter e)
  | fuel + 1, .product => do
    let left ← readWithin fuel .signed
    readWithin fuel (.productAfter left)
  | fuel + 1, .productAfter left => do
    let t ← current
    match productOperator? t.lexeme with
    | none => pure left
    | some op => do
      discard advance
      let right ← readWithin fuel .signed
      let e ← allocate (.binary op left right t.span)
      readWithin fuel (.productAfter e)
  | fuel + 1, .signed => do
    let read ← signs (fuel + 1) []
    let e ← readWithin fuel .power
    let e ← underSigns read e
    leave read.length
    pure e
  | fuel + 1, .power => do
    let base ← readWithin fuel .primary
    let t ← current
    if t.lexeme ≠ .power then pure base
    else do
      discard advance
      enter
      let exponent ← readWithin fuel .signed
      leave 1
      allocate (.binary .pow base exponent t.span)
  | fuel + 1, .primary => do
    let t ← current
    match t.lexeme with
    | .number v => do
      discard advance
      match v with
      | some v => allocate (.literal v t.span)
      | none => throw .missingValue
    | .lparen => readWithin fuel .group
    | .identifier n => do
      let next ← peek 1
      if next.lexeme = .lparen then readWithin fuel .call
      else do
        discard advance
        allocate (.name (n.getD "None") t.span)
    | _ => reject (.expectedPrimary · Cause.primaryWanted)
  | fuel + 1, .group => do
    discard advance
    enter
    let e ← readWithin fuel .sum
    close
    pure e
  | fuel + 1, .call => do
    let t ← current
    let name := t.name?.getD "None"
    match Function.ofName? name with
    | none => reject (.expectedPrimary · (Cause.unknownFunctionWanted name))
    | some f => do
      discard advance
      discard advance
      enter
      let next ← current
      if next.lexeme = .rparen then do
        close
        allocate (.call f [] t.span)
      else readWithin fuel (.arguments f t.span [])
  | fuel + 1, .arguments f span read => do
    let e ← readWithin fuel .sum
    let t ← current
    if t.lexeme = .comma then do
      discard advance
      readWithin fuel (.arguments f span (e :: read))
    else do
      close
      allocate (.call f (e :: read).reverse span)

/-- A number of steps that is enough for the tokens that remain. -/
def State.fuel (s : State) : Nat := 8 * (s.tokens.size - s.pos) + 16

/-- Read what a rule describes. -/
def Rule.read (r : Rule) : Parser Expr := fun s => r.readWithin s.fuel s

/-- Whether a sequence of tokens ends with the end of the input. -/
def isTerminated (tokens : List Token) : Bool := tokens.getLast?.any fun t => t.lexeme = .eof

/-- Put a sequence of tokens under the cursor. -/
def load (tokens : List Token) : Parser Unit :=
  modify fun s => { s with tokens := tokens.toArray, pos := 0 }

/-- Parse a sequence of tokens, all of which have to make up one sum. -/
def parse (tokens : List Token) : Parser Expr := do
  if !isTerminated tokens then throw .unterminated
  load tokens
  modify fun s => { s with depth := 0 }
  let e ← Rule.sum.read
  let t ← current
  if t.lexeme ≠ .eof then reject .trailingInput
  pure e

/-- The tokens of a source. -/
def scanned (source : String) : Parser (List Token) :=
  match scan source with
  | .ok tokens => pure tokens
  | .error f => throw (.fault f)

/-- Scan and parse a source. -/
def parseSource (source : String) : Parser Expr := do
  let tokens ← scanned source
  parse tokens

/-- Scan a source and put its tokens under the cursor. -/
def loadSource (source : String) : Parser Unit := do
  let tokens ← scanned source
  load tokens

/-- Release the arena. -/
def release : Parser Unit :=
  modify fun s => { s with arena := s.arena.release }

/-- The nesting limit where none is given. -/
def defaultLimit : Int := 100

end Parser

end Reckoner
