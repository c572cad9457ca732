import Reckoner.Proofs.Nesting
import Reckoner.Proofs.Parsing.Chains
import Mathlib.Logic.Relation

/-!
# The moves of a parser

Whatever a rule describes, it is read by a few kinds of moves: a token is passed, which may open or
close a level; a node is counted; signs and exponents are left. Where a parser is in the midst of a
reading is its stage: the levels that are open, the nodes that are owed, and what was read last.
Which tokens can be passed at a stage is stated without a parser.

Every reading is a path of such moves, and where it stops it halts for one of a few reasons. So what
each single move keeps is kept by whole readings (`Moves.keeps`), and a proof about readings needs
to look at the moves only.
-/

namespace Reckoner

open Standing

/-- The token at which a level too many is found, where a token that the rest follows opens it. -/
inductive Token.RefusedAt (o : Token) (rest : List Token) : Token → Prop where
  /-- A sign is refused itself. -/
  | sign {sg : Sign} (h : Parser.signOf? o.lexeme = some sg) : RefusedAt o rest o
  /-- Behind a parenthesis or the sign of a power the next token is refused. -/
  | behind {t : Token} {r : List Token} (h : o.lexeme = .lparen ∨ o.lexeme = .power)
      (hrest : rest = t :: r) : RefusedAt o rest t

namespace Parser

/-! ### Stages -/

/-- What was read last. -/
inductive Phase where
  /-- Nothing: an operand is awaited. -/
  | awaiting
  /-- A primary. -/
  | primary
  /-- An operand, in which signs and exponents may still be open for a reader of its tokens. -/
  | operand
  deriving DecidableEq

/-- Where a parser is in the midst of a reading. -/
structure Stage where
  /-- The levels that are open, the innermost first. -/
  opened : List Opening
  /-- The number of tokens that were passed and whose nodes are still to be counted. -/
  owed : Nat
  /-- What was read last. -/
  phase : Phase

/-- A lexeme can be passed at a stage and leads to another one. -/
inductive Stage.Passes : Stage → Lexeme → Stage → Prop where
  /-- A number or a name. -/
  | operand {os n l} (h : (∃ v, l = .number v) ∨ ∃ m, l = .identifier m) :
      Passes ⟨os, n, .awaiting⟩ l ⟨os, n + 1, .primary⟩
  /-- An operator of a chain. -/
  | operator {os n l} {c : Chain} {op : BinaryOp} (hos : IsOuter os)
      (h : c.operator? l = some op) : Passes ⟨os, n, .operand⟩ l ⟨os, n + 1, .awaiting⟩
  /-- A comma in an argument list. -/
  | comma {os n l} (h : l = .comma) :
      Passes ⟨.bracket :: os, n, .operand⟩ l ⟨.bracket :: os, n, .awaiting⟩
  /-- A sign opens a level. -/
  | sign {os n l} {sg : Sign} (h : signOf? l = some sg) :
      Passes ⟨os, n, .awaiting⟩ l ⟨.sign :: os, n + 1, .awaiting⟩
  /-- The sign of a power opens a level. -/
  | power {os n l} (h : l = .power) :
      Passes ⟨os, n, .primary⟩ l ⟨.exponent :: os, n + 1, .awaiting⟩
  /-- A parenthesis opens a level, also behind the name of a function. -/
  | lparen {os n l ph} (hph : ph ≠ .operand) (h : l = .lparen) :
      Passes ⟨os, n, ph⟩ l ⟨.bracket :: os, n, .awaiting⟩
  /-- A parenthesis closes a level. -/
  | rparen {os n l ph} (hph : ph ≠ .primary) (h : l = .rparen) :
      Passes ⟨.bracket :: os, n, ph⟩ l ⟨os, n, .primary⟩

namespace Stage.Passes

variable {c c' : Stage} {l : Lexeme}

/-- The end of the input is never passed. -/
theorem ne_eof (h : c.Passes l c') : l ≠ .eof := by
  rintro rfl
  cases h with
  | operand h => simp at h
  | @operator _ _ _ c _ _ h => cases c <;> cases h
  | comma h | sign h | power h | lparen _ h | rparen _ h => cases h

/-- At most one level is opened. -/
theorem length_le (h : c.Passes l c') : c'.opened.length ≤ c.opened.length + 1 := by
  cases h <;> simp only [List.length_cons] <;> omega

end Stage.Passes

/-! ### Moves -/

/-- The state behind the token at the cursor, at another depth. -/
def State.passed (s : State) (levels : Int) : State :=
  { s.after 1 0 with depth := s.depth + levels }

@[simp] theorem State.rest_passed (s : State) (levels : Int) :
    (s.passed levels).rest = (s.after 1 0).rest := rfl

/-- One move of a parser. -/
inductive Move : Stage × State → Stage × State → Prop where
  /-- A token is passed. A level that it opens is one that the limit allows. -/
  | pass {c c' : Stage} {s : State} {t u : Token} {r : List Token} {d : Int}
      (hr : s.rest = t :: u :: r) (h : c.Passes t.lexeme c')
      (hd : (c'.opened.length : Int) = c.opened.length + d) (hroom : 0 < d → s.depth < s.limit) :
      Move (c, s) (c', s.passed d)
  /-- A node that is owed is counted. -/
  | count {os n ph} {s : State} : Move (⟨os, n + 1, ph⟩, s) (⟨os, n, ph⟩, s.after 0 1)
  /-- Signs and exponents are left behind their operand. -/
  | leave {os n} {s : State} (inner : List Opening) (h : IsInner inner) :
      Move (⟨inner ++ os, n, .operand⟩, s)
        (⟨os, n, .operand⟩, { s with depth := s.depth - inner.length })
  /-- A primary is an operand. -/
  | loosen {os n} {s : State} : Move (⟨os, n, .primary⟩, s) (⟨os, n, .operand⟩, s)

/-- A path of any number of moves. -/
abbrev Moves : Stage × State → Stage × State → Prop := Relation.ReflTransGen Move

/-- Why and how a parser stops where it is. -/
inductive Halt (cut : Prop) : Stage × State → Stop → State → Prop where
  /-- The token at the cursor is at fault, and not for a level too many. -/
  | wrong {c : Stage} {s : State} {t : Token} {r : List Token} {cause : Lexeme → Cause}
      (hr : s.rest = t :: r) (hcause : ∀ l l' n, cause l ≠ .nestingTooDeep l' n) :
      Halt cut (c, s) (.fault (t.fault cause)) s
  /-- A group or an argument list is left, but the token at the cursor does not close it. -/
  | unclosed {os n ph} {s : State} {t : Token} {r : List Token} (hr : s.rest = t :: r) :
      Halt cut (⟨.bracket :: os, n, ph⟩, s) (.fault (t.fault .expectedRParen))
        { s with depth := s.depth - (1 : Nat) }
  /-- The token at the cursor opens a level too many. -/
  | tooDeep {c c' : Stage} {s : State} {o u t : Token} {r v : List Token} {k : Nat}
      (hr : s.rest = o :: u :: r) (h : c.Passes o.lexeme c')
      (hlength : c'.opened.length = c.opened.length + 1) (hd : s.limit ≤ s.depth)
      (hat : o.RefusedAt (u :: r) t) (hk : k ≤ 1) (ht : (s.after k 0).rest = t :: v) :
      Halt cut (c, s) (.fault (t.fault (.nestingTooDeep · s.limit))) ((s.after k 0).nested 1)
  /-- The number at the cursor lacks its value. -/
  | missing {c : Stage} {s : State} {t u : Token} {r : List Token} (hr : s.rest = t :: u :: r)
      (ht : t.lexeme = .number none) : Halt cut (c, s) .missingValue (s.after 1 0)
  /-- The arena was released. -/
  | released {c : Stage} {s : State} (h : s.arena.released = true) : Halt cut (c, s) .released s
  /-- The steps ran out, if they may. -/
  | exhausted {a : Stage × State} (h : cut) : Halt cut a .outOfFuel a.2

/-- An end that a path leads to: a success at a stage, or a stop where the path has led. -/
def Arrives {α : Type} (cut : Prop) (a : Stage × State) (stage : α → Stage) :
    EStateM.Result Stop State α → Prop
  | .ok x s => Moves a (stage x, s)
  | .error e s => ∃ b, Moves a b ∧ Halt cut b e s

variable {cut : Prop} {a b : Stage × State}

/-- What every move keeps is kept by paths. -/
theorem Moves.keeps {P : Stage × State → Prop} (hP : ∀ {a b}, Move a b → P a → P b)
    (h : Moves a b) (ha : P a) : P b := by
  induction h with
  | refl => exact ha
  | tail _ hmove ih => exact hP hmove ih

/-- The cursor stands on a token after every move. -/
theorem Move.ready (h : Move a b) (ha : a.2.Ready) : b.2.Ready := by
  cases h with
  | pass hr h => exact (State.Ready.after_one ha hr h.ne_eof).2 0
  | count | leave | loosen => exact ha

theorem Moves.ready (h : Moves a b) (ha : a.2.Ready) : b.2.Ready :=
  h.keeps (P := fun a => a.2.Ready) Move.ready ha

/-- The number of tokens that are read at least for what was read last. -/
def Phase.least : Phase → Nat
  | .awaiting => 0
  | .primary | .operand => 1

/-- What was read takes its tokens from those that remain. -/
def remaining (a : Stage × State) : Nat := a.2.rest.length + a.1.phase.least

/-- No move adds to the tokens that remain. -/
theorem Move.remaining_le (h : Move a b) : remaining b ≤ remaining a := by
  cases h with
  | @pass c c' s t u r d hr =>
    have hleast : c'.phase.least ≤ 1 := by cases c'.phase <;> simp [Phase.least]
    simp only [remaining, State.rest_passed, State.rest_after, hr, List.drop_succ_cons,
      List.drop_zero, List.length_cons]
    omega
  | count | leave | loosen => exact Nat.le_refl _

theorem Moves.remaining_le (h : Moves a b) : remaining b ≤ remaining a :=
  h.keeps (P := fun b => remaining b ≤ remaining a) (fun h hle => h.remaining_le.trans hle)
    (Nat.le_refl _)

/-- The steps run out no more often than they may. -/
theorem Halt.mono {cut' : Prop} {e : Stop} {s : State} (h : Halt cut a e s) (hcut : cut → cut') :
    Halt cut' a e s := by
  cases h with
  | wrong hr hcause => exact .wrong hr hcause
  | unclosed hr => exact .unclosed hr
  | tooDeep hr h hlength hd hat hk ht => exact .tooDeep hr h hlength hd hat hk ht
  | missing hr ht => exact .missing hr ht
  | released h => exact .released h
  | exhausted h => exact .exhausted (hcut h)

theorem Arrives.mono {α : Type} {cut' : Prop} {stage : α → Stage}
    {x : EStateM.Result Stop State α} (h : Arrives cut a stage x) (hcut : cut → cut') :
    Arrives cut' a stage x := by
  cases x with
  | ok => exact h
  | error e s =>
    obtain ⟨b, hmoves, hhalt⟩ := h
    exact ⟨b, hmoves, hhalt.mono hcut⟩

end Parser

end Reckoner
