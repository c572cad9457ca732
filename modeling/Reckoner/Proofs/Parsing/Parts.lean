import Reckoner.Proofs.Parsing.Causes
import Reckoner.Proofs.Parsing.Reruns
import Reckoner.Proofs.Parsing.Sessions

/-!
# Parts that are read by themselves

A part of an expression can be read from wherever the cursor stands, at any depth and under any
limit, and also at a token that it does not start with. A part that is read leaves the levels open
that were open before, no more and no fewer, and the cursor further on. Where a part is at fault,
the token under the cursor is to blame, and neither the cursor nor the depth is less than before.
-/

namespace Reckoner.Parser

/-- From every state with the cursor in range of tokens that end with the end of the input, a part
that is read leaves the depth as it was and the cursor at least one token further on and in range.
A fault is found at the token under the cursor, with the cursor no further back and no fewer levels
open. Nothing else stops the reading but a number without a value and a released arena. -/
theorem balanced_of_read (part : Part) {s : State} (hterm : isTerminated s.tokens.toList = true)
    (hpos : s.pos < s.tokens.size) :
    (∀ t s', part.rule.read s = .ok t s' →
      s'.depth = s.depth ∧ s.pos < s'.pos ∧ s'.pos < s'.tokens.size ∧ s'.tokens = s.tokens) ∧
    (∀ f s', part.rule.read s = .error (.fault f) s' →
      (∃ t, s'.tokens[s'.pos]? = some t ∧ f.span = t.span ∧ f.cause.FoundAt t) ∧
      s.pos ≤ s'.pos ∧ s.depth ≤ s'.depth ∧ s'.tokens = s.tokens) ∧
    ∀ stop s', part.rule.read s = .error stop s' → (∀ f, stop ≠ .fault f) →
      (stop = .missingValue ∧ ∃ t ∈ s.rest, t.lexeme = .number none) ∨
        stop = .released ∧ s.arena.released = true := by
  have horderly := orderly_read part (State.ready_iff.mpr ⟨hterm, hpos⟩)
  refine ⟨fun t s' h => ?_, fun f s' h => ?_, fun stop s' h hne => ?_⟩
  · rw [h] at horderly
    obtain ⟨hready, k, n, hk, rfl⟩ := horderly
    exact ⟨rfl, Nat.lt_add_of_pos_right hk, (State.ready_iff.mp hready).2, rfl⟩
  · rw [h] at horderly
    obtain ⟨-, ⟨k, n, d, rfl⟩, -⟩ := horderly
    have hdepth : s.depth ≤ s.depth + d := by omega
    exact ⟨(part.rule.conduct _ s).fault f _ h, Nat.le_add_right s.pos k, hdepth, rfl⟩
  · rw [h] at horderly
    cases horderly.reason with
    | fault _ _ => exact absurd rfl (hne _)
    | missingValue ht hnone => exact .inl ⟨rfl, _, ht, hnone⟩
    | released hr => exact .inr ⟨rfl, hr⟩

/-- The tokens of `)x)`. -/
private def closedTwice : List Token :=
  [⟨.rparen, ⟨0, 1⟩⟩, ⟨.identifier (some "x"), ⟨1, 2⟩⟩, ⟨.rparen, ⟨2, 3⟩⟩, ⟨.eof, ⟨3, 3⟩⟩]

/-- The tokens of `--x`. -/
private def negatedTwice : List Token :=
  [⟨.minus, ⟨0, 1⟩⟩, ⟨.minus, ⟨1, 2⟩⟩, ⟨.identifier (some "x"), ⟨2, 3⟩⟩, ⟨.eof, ⟨3, 3⟩⟩]

/-- A group can be read where no parenthesis opens it, here at a depth of seven under a limit of
eight; and the second sign of `--x` is a level too many at a depth of one under a limit of two. -/
theorem balanced_of_read_unopened :
    (∃ t s', Part.group.rule.read ⟨closedTwice.toArray, 0, 7, 8, .empty⟩ = .ok t s' ∧
      s'.depth = 7 ∧ 0 < s'.pos ∧ s'.pos < s'.tokens.size) ∧
    ∃ s', Part.signed.rule.read ⟨negatedTwice.toArray, 0, 1, 2, .empty⟩ =
        .error (.fault ⟨.nestingTooDeep .minus 2, ⟨1, 2⟩⟩) s' ∧
      s'.pos = 1 ∧ 1 ≤ s'.depth ∧ ∃ t, s'.tokens[s'.pos]? = some t ∧ t.span = ⟨1, 2⟩ := by
  constructor
  · have h : Part.group.rule.read ⟨closedTwice.toArray, 0, 7, 8, .empty⟩ = .ok _ _ := rfl
    obtain ⟨hdepth, hlt, hrange, -⟩ :=
      (balanced_of_read .group (by decide) (by decide)).1 _ _ h
    exact ⟨_, _, h, hdepth, hlt, hrange⟩
  · have h : Part.signed.rule.read ⟨negatedTwice.toArray, 0, 1, 2, .empty⟩ =
        .error (.fault ⟨.nestingTooDeep .minus 2, ⟨1, 2⟩⟩) _ := rfl
    obtain ⟨⟨t, ht, hspan, -⟩, -, hdepth, -⟩ :=
      (balanced_of_read .signed (by decide) (by decide)).2.1 _ _ h
    exact ⟨_, h, rfl, hdepth, t, ht, hspan.symm⟩

end Reckoner.Parser
