import Reckoner.Proofs.Parsing.Sequence
import Reckoner.Proofs.Relocation

/-!
# Parsers side by side

One parser can be compared with another that reads tokens which correspond to those of the first
one, and that may take more steps. The tokens stand at other places, and what they lack may be
filled in; the results are the same expressions at other places. A relation between such parsers
that the elementary parsers are in, and that is kept where parsers are put together, is a
simulation. The readings of every rule are in every simulation, which is proved here once, rule by
rule. With nothing changed, a simulation is a property of parsers.
-/

namespace Reckoner.Parser

/-- A change of tokens that places them anew and at most fills in what they lack. -/
structure Completes (place : Span → Span) (g : Token → Token) : Prop where
  /-- Tokens stand where they are placed. -/
  span : ∀ t, (g t).span = place t.span
  /-- A lexeme stays what it is, unless it lacks a value or a name. -/
  lexeme : ∀ t, (g t).lexeme = t.lexeme ∨
    t.lexeme = .number none ∧ (∃ v, (g t).lexeme = .number (some v)) ∨
    t.lexeme = .identifier none ∧ (g t).lexeme = .identifier (some "None")

/-- Nothing is filled in where tokens are only placed anew. -/
theorem completes_relocate (place : Span → Span) : Completes place (Token.relocate place) :=
  ⟨fun _ => rfl, fun _ => .inl rfl⟩

/-- Tokens may be left as they are. -/
theorem completes_id : Completes id id := completes_relocate id

namespace Completes

variable {place : Span → Span} {g : Token → Token}

/-- What does not depend on values and treats a missing name as it is shown is not changed. -/
theorem congr (hg : Completes place g) {γ : Type} (F : Lexeme → γ)
    (hnumber : ∀ v, F (.number (some v)) = F (.number none))
    (hname : F (.identifier (some "None")) = F (.identifier none)) (t : Token) :
    F (g t).lexeme = F t.lexeme := by
  rcases hg.lexeme t with h | ⟨h, v, h'⟩ | ⟨h, h'⟩
  · rw [h]
  · rw [h, h', hnumber]
  · rw [h, h', hname]

/-- A test for a lexeme that lacks nothing has one outcome for tokens that correspond. -/
theorem eq_iff (hg : Completes place g) {l : Lexeme} (hnumber : ∀ v, l ≠ .number v)
    (hname : ∀ n, l ≠ .identifier n) (t : Token) : (g t).lexeme = l ↔ t.lexeme = l := by
  have h := hg.congr (fun l' => l' = l) (fun v => by simp [(hnumber _).symm])
    (by simp [(hname _).symm]) t
  exact iff_of_eq h

/-- A test for a lexeme that lacks nothing chooses alike for tokens that correspond. -/
theorem ite (hg : Completes place g) {α β : Type} {R : α → β → Prop} {l : Lexeme}
    (hnumber : ∀ v, l ≠ .number v) (hname : ∀ n, l ≠ .identifier n) (t : Token) {x y : α}
    {x' y' : β} (hx : R x x') (hy : R y y') :
    R (if t.lexeme = l then x else y) (if (g t).lexeme = l then x' else y') := by
  have ht := hg.eq_iff hnumber hname t
  by_cases h : t.lexeme = l
  · rwa [if_pos h, if_pos (ht.mpr h)]
  · rwa [if_neg h, if_neg (mt ht.mp h)]

/-- The name that is looked up is the same. -/
theorem getD_name? (hg : Completes place g) (t : Token) :
    (g t).name?.getD "None" = t.name?.getD "None" := by
  rcases hg.lexeme t with h | ⟨h, v, h'⟩ | ⟨h, h'⟩
  · simp only [Token.name?, h]
  · simp only [Token.name?, h, h']
  · simp only [Token.name?, h, h', Option.getD]

end Completes

/-- What is to be read next, with all spans placed anew. -/
def Rule.relocate (place : Span → Span) : Rule → Rule
  | .sum => .sum
  | .sumAfter left => .sumAfter (left.relocate place)
  | .product => .product
  | .productAfter left => .productAfter (left.relocate place)
  | .signed => .signed
  | .power => .power
  | .primary => .primary
  | .group => .group
  | .call => .call
  | .arguments f span read => .arguments f (place span) (read.map (Expr.relocate place))

@[simp] theorem Rule.relocate_id (r : Rule) : r.relocate id = r := by
  cases r with
  | sumAfter left | productAfter left => rw [relocate, Expr.relocate_id]
  | arguments f span read =>
    have hread : read.map (Expr.relocate id) = read :=
      (List.map_congr_left fun e _ => e.relocate_id).trans (List.map_id' _)
    rw [relocate, hread, id]
  | _ => rfl

/-- Signs with their spans placed anew. -/
def relocateSigns (place : Span → Span) (read : List (Sign × Span)) : List (Sign × Span) :=
  read.map fun p => (p.1, place p.2)

/-! ### Parts of rules -/

/-- A number with its value is counted, and one without stops the parser. -/
def countNumber (v : Option Value) (span : Span) : Parser Expr :=
  match v with
  | some v => allocate (.literal v span)
  | none => throw .missingValue

/-- A name is the start of a call where a parenthesis follows it. -/
def afterName (n : Nat) (name : String) (span : Span) : Parser Expr := do
  let next ← peek 1
  if next.lexeme = .lparen then Rule.call.readWithin n
  else do
    discard advance
    allocate (.name name span)

/-- Causes that are told in the same way at every token. -/
inductive GeneralCause : (Lexeme → Cause) → Prop where
  /-- No primary starts here. -/
  | unopened : GeneralCause (.expectedPrimary · Cause.primaryWanted)
  /-- A closing parenthesis is lacking. -/
  | unclosed : GeneralCause .expectedRParen
  /-- The input goes on where it should end. -/
  | trailing : GeneralCause .trailingInput

/-- A relation between parsers, with a map between their results, that all readings are in. -/
structure Simulation (place : Span → Span) (g : Token → Token) (steps : Nat) where
  /-- The relation. -/
  Rel : {α β : Type} → (α → β) → Parser α → Parser β → Prop
  /-- Tokens correspond. -/
  completes : Completes place g
  /-- Two parsers in a row are related one by one. -/
  bind : ∀ {α β γ δ : Type} {φ : α → β} {ψ : γ → δ} {p : Parser α} {q : Parser β}
    {f : α → Parser γ} {h : β → Parser δ}, Rel φ p q → (∀ a, Rel ψ (f a) (h (φ a))) →
      Rel ψ (p >>= f) (q >>= h)
  /-- Results correspond. -/
  pure : ∀ {α β : Type} (φ : α → β) (a : α), Rel φ (Pure.pure a) (Pure.pure (φ a))
  /-- The second parser may have more steps. -/
  exhausted : ∀ {α β : Type} (φ : α → β) (q : Parser β), (steps = 0 → q = throw .outOfFuel) →
    Rel φ (throw .outOfFuel) q
  /-- A number that lacks its value may have one in the second parser. -/
  missing : ∀ {t : Token} {v : Option Value}, t.lexeme = .number none →
    (g t).lexeme = .number v →
      Rel (Expr.relocate place) (countNumber none t.span) (countNumber v (place t.span))
  /-- Tokens that are looked at or passed correspond. -/
  current : Rel g current current
  advance : Rel g advance advance
  /-- Levels are opened and left alike. -/
  enter : Rel id enter enter
  leave : ∀ levels : Nat, Rel id (leave levels) (leave levels)
  /-- Nodes are counted alike. -/
  allocate : ∀ e : Expr,
    Rel (Expr.relocate place) (allocate e) (allocate (e.relocate place))
  /-- Faults correspond that are told in the same way at every token. -/
  reject : ∀ {α β : Type} (φ : α → β) {cause : Lexeme → Cause}, GeneralCause cause →
    Rel φ (reject cause) (reject cause)
  /-- The same function is looked up, or the same name is at fault. -/
  lookUp : ∀ {p q : Token → Function → Parser Expr},
    (∀ t f, Rel (Expr.relocate place) (p t f) (q (g t) f)) →
      Rel (Expr.relocate place) (lookUp p) (lookUp q)
  /-- A name starts a call in both parsers or in neither. -/
  afterName : ∀ {n : Nat} (name : String) (span : Span),
    Rel (Expr.relocate place) (Rule.call.readWithin n) (Rule.call.readWithin (n + steps)) →
      Rel (Expr.relocate place) (afterName n name span) (afterName (n + steps) name (place span))

namespace Simulation

variable {place : Span → Span} {g : Token → Token} {steps : Nat} (S : Simulation place g steps)
variable {α β : Type} {φ : α → β} {l : Lexeme} {t : Token} {p q : Parser α} {p' q' : Parser β}

theorem skip : S.Rel id (discard Parser.advance) (discard Parser.advance) :=
  S.bind S.advance fun _ => S.pure id ()

theorem ite (hnumber : ∀ v, l ≠ .number v) (hname : ∀ n, l ≠ .identifier n)
    (hp : S.Rel φ p p') (hq : S.Rel φ q q') :
    S.Rel φ (if t.lexeme = l then p else q) (if (g t).lexeme = l then p' else q') :=
  S.completes.ite hnumber hname t hp hq

theorem ite_ne (hnumber : ∀ v, l ≠ .number v) (hname : ∀ n, l ≠ .identifier n)
    (hp : S.Rel φ p p') (hq : S.Rel φ q q') :
    S.Rel φ (if t.lexeme ≠ l then p else q) (if (g t).lexeme ≠ l then p' else q') := by
  have h := S.completes.ite hnumber hname t hq hp
  simpa only [ne_eq, ite_not] using h

theorem close : S.Rel id close close :=
  S.bind (S.leave 1) fun _ => S.bind S.current fun _ => S.ite_ne (by simp) (by simp)
    (S.bind (S.reject id .unclosed) fun _ => S.skip) S.skip

/-- The same signs are read. -/
theorem signs (n : Nat) (read : List (Sign × Span)) :
    S.Rel (relocateSigns place) (signs n read) (signs (n + steps) (relocateSigns place read)) := by
  induction n generalizing read with
  | zero =>
    refine S.exhausted _ _ fun h => ?_
    rw [h]
    rfl
  | succ n ih =>
    rw [Nat.add_right_comm, Parser.signs, Parser.signs]
    refine S.bind S.current fun t => ?_
    rw [S.completes.congr signOf? (fun _ => rfl) rfl]
    cases signOf? t.lexeme with
    | none => exact S.pure (relocateSigns place) read
    | some sg =>
      refine S.bind S.enter fun _ => S.bind S.advance fun u => ?_
      rw [S.completes.span]
      exact ih ((sg, u.span) :: read)

theorem underSigns (read : List (Sign × Span)) (e : Expr) :
    S.Rel (Expr.relocate place) (underSigns read e)
      (underSigns (relocateSigns place read) (e.relocate place)) := by
  induction read generalizing e with
  | nil => exact S.pure (Expr.relocate place) e
  | cons p read ih => exact S.bind (S.allocate (.signed p.1 e p.2)) fun e => ih e

/-- What is behind the name of a function is read in a simulation if the arguments are. -/
theorem behindName {n : Nat} (f : Function) (span : Span)
    (hargs : S.Rel (Expr.relocate place) ((Rule.arguments f span []).readWithin n)
      ((Rule.arguments f (place span) []).readWithin (n + steps))) :
    S.Rel (Expr.relocate place) (behindName n f span) (behindName (n + steps) f (place span)) := by
  refine S.bind S.skip fun _ => S.bind S.enter fun _ =>
    S.bind S.current fun next => S.ite (by simp) (by simp) ?_ hargs
  exact S.bind S.close fun _ => S.allocate (.call f [] span)

section Rules

variable {n : Nat} (ih : ∀ r : Rule, S.Rel (Expr.relocate place) (r.readWithin n)
  ((r.relocate place).readWithin (n + steps)))

include ih

private theorem after (c : Chain) (left : Expr) :
    S.Rel (Expr.relocate place) ((c.after left).readWithin (n + 1))
      ((c.after (left.relocate place)).readWithin (n + steps + 1)) := by
  have hafter (e : Expr) : (c.after e).relocate place = c.after (e.relocate place) := by
    cases c <;> rfl
  have hoperand : c.operand.relocate place = c.operand := by cases c <;> rfl
  have hop (t : Token) : c.operator? (g t).lexeme = c.operator? t.lexeme :=
    S.completes.congr c.operator? (fun _ => by cases c <;> rfl) (by cases c <;> rfl) t
  rw [c.readWithin_after, c.readWithin_after]
  refine S.bind S.current fun t => ?_
  rw [hop, S.completes.span]
  cases c.operator? t.lexeme with
  | none => exact S.pure (Expr.relocate place) left
  | some op =>
    refine S.bind S.skip fun _ => S.bind (hoperand ▸ ih c.operand) fun right => ?_
    exact S.bind (S.allocate (.binary op left right t.span)) fun e => hafter e ▸ ih (c.after e)

private theorem signed : S.Rel (Expr.relocate place) (Rule.signed.readWithin (n + 1))
    (Rule.signed.readWithin (n + steps + 1)) := by
  have hsigns := S.signs (n + 1) []
  rw [Nat.add_right_comm] at hsigns
  rw [Rule.readWithin, Rule.readWithin]
  refine S.bind hsigns fun read => S.bind (ih .power) fun e => S.bind (S.underSigns read e)
    fun e => ?_
  rw [relocateSigns, List.length_map]
  exact S.bind (S.leave _) fun _ => S.pure (Expr.relocate place) e

private theorem power : S.Rel (Expr.relocate place) (Rule.power.readWithin (n + 1))
    (Rule.power.readWithin (n + steps + 1)) := by
  rw [Rule.readWithin, Rule.readWithin]
  refine S.bind (ih .primary) fun base => S.bind S.current fun t => ?_
  rw [S.completes.span]
  refine S.ite_ne (by simp) (by simp) (S.pure (Expr.relocate place) base) ?_
  exact S.bind S.skip fun _ => S.bind S.enter fun _ => S.bind (ih .signed) fun x =>
    S.bind (S.leave 1) fun _ => S.allocate (.binary .pow base x t.span)

private theorem primary : S.Rel (Expr.relocate place) (Rule.primary.readWithin (n + 1))
    (Rule.primary.readWithin (n + steps + 1)) := by
  have hnumber (v : Option Value) (t : Token) (w : Option Value)
      (h : S.Rel (Expr.relocate place) (countNumber v t.span) (countNumber w (place t.span))) :
      S.Rel (Expr.relocate place) (discard Parser.advance >>= fun _ => countNumber v t.span)
        (discard Parser.advance >>= fun _ => countNumber w (place t.span)) :=
    S.bind S.skip fun _ => h
  rw [Rule.readWithin, Rule.readWithin]
  refine S.bind S.current fun t => ?_
  rw [S.completes.span]
  rcases S.completes.lexeme t with h | ⟨h, v, h'⟩ | ⟨h, h'⟩
  · rw [h]
    cases ht : t.lexeme with
    | number v =>
      cases v with
      | none => exact hnumber none t none (S.missing ht (h.trans ht))
      | some v => exact hnumber (some v) t (some v) (S.allocate (.literal v t.span))
    | lparen => exact ih .group
    | identifier m => exact S.afterName (m.getD "None") t.span (ih .call)
    | _ => exact S.reject _ .unopened
  · rw [h, h']
    exact hnumber none t (some v) (S.missing h h')
  · rw [h, h']
    exact S.afterName "None" t.span (ih .call)

private theorem group : S.Rel (Expr.relocate place) (Rule.group.readWithin (n + 1))
    (Rule.group.readWithin (n + steps + 1)) :=
  S.bind S.skip fun _ => S.bind S.enter fun _ => S.bind (ih .sum) fun e =>
    S.bind S.close fun _ => S.pure (Expr.relocate place) e

private theorem call : S.Rel (Expr.relocate place) (Rule.call.readWithin (n + 1))
    (Rule.call.readWithin (n + steps + 1)) := by
  rw [readWithin_call, readWithin_call]
  refine S.lookUp fun t f => ?_
  rw [S.completes.span]
  exact S.bind S.skip fun _ => S.behindName f t.span (ih (.arguments f t.span []))

private theorem arguments (f : Function) (span : Span) (read : List Expr) :
    S.Rel (Expr.relocate place) ((Rule.arguments f span read).readWithin (n + 1))
      (((Rule.arguments f span read).relocate place).readWithin (n + steps + 1)) := by
  rw [Rule.relocate, Rule.readWithin, Rule.readWithin]
  refine S.bind (ih .sum) fun e => S.bind S.current fun t => S.ite (by simp) (by simp) ?_ ?_
  · exact S.bind S.skip fun _ => ih (.arguments f span (e :: read))
  · have hcall : (Expr.call f (e :: read).reverse span).relocate place =
        .call f ((e :: read).map (Expr.relocate place)).reverse (place span) := by
      rw [Expr.relocate, Expr.relocateAll_eq_map, List.map_reverse]
    exact S.bind S.close fun _ => hcall ▸ S.allocate (.call f (e :: read).reverse span)

end Rules

/-- Every rule is read in a simulation of its reading. -/
theorem rule (n : Nat) (r : Rule) : S.Rel (Expr.relocate place) (r.readWithin n)
    ((r.relocate place).readWithin (n + steps)) := by
  induction n generalizing r with
  | zero =>
    have hzero : r.readWithin 0 = throw .outOfFuel := funext r.readWithin_zero
    have hzero' : (r.relocate place).readWithin 0 = throw .outOfFuel :=
      funext (r.relocate place).readWithin_zero
    rw [hzero]
    refine S.exhausted _ _ fun h => ?_
    rw [h]
    exact hzero'
  | succ n ih =>
    rw [Nat.add_right_comm]
    cases r with
    | sum => exact S.bind (ih .product) fun left => ih (.sumAfter left)
    | sumAfter left => exact S.after ih .sum left
    | product => exact S.bind (ih .signed) fun left => ih (.productAfter left)
    | productAfter left => exact S.after ih .product left
    | signed => exact S.signed ih
    | power => exact S.power ih
    | primary => exact S.primary ih
    | group => exact S.group ih
    | call => exact S.call ih
    | arguments f span read => exact S.arguments ih f span read

/-- What is left to do after a sum is done in a simulation. -/
theorem afterSum (e : Expr) : S.Rel (Expr.relocate place) (afterSum e)
    (afterSum (e.relocate place)) :=
  S.bind S.current fun _ => S.ite_ne (by simp) (by simp)
    (S.bind (S.reject (id : Unit → Unit) .trailing) fun _ => S.pure (Expr.relocate place) e)
    (S.pure (Expr.relocate place) e)

/-- A sum up to the end of the input is read in a simulation. -/
theorem sum (n : Nat) : S.Rel (Expr.relocate place) (Rule.sum.readWithin n >>= Parser.afterSum)
    (Rule.sum.readWithin (n + steps) >>= Parser.afterSum) :=
  S.bind (S.rule n .sum) S.afterSum

end Simulation

end Reckoner.Parser
