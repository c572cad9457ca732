import Reckoner.Proofs.Parsing.Completeness
import Reckoner.Proofs.Parsing.Sequence
import Reckoner.Proofs.Parsing.Soundness

/-!
# Parsing accepts exactly the grammar

A sequence of tokens before the end of the input is parsed to an expression exactly if the grammar
derives that expression from it with a nesting within the limit. Since a parser has one result, the
grammar gives no sequence two expressions.
-/

namespace Reckoner.Parser

/-- The only end of the input is where a sequence is cut before an end of the input. -/
theorem eq_of_append_eof {ts us r : List Token} {e o : Token}
    (hts : ∀ t ∈ ts, t.lexeme ≠ .eof) (ho : o.lexeme = .eof) (h : ts ++ [e] = us ++ o :: r) :
    us = ts := by
  rcases List.append_eq_append_iff.mp h with ⟨a, rfl, ha⟩ | ⟨c, rfl, hc⟩
  · cases a with
    | nil => simp
    | cons _ _ => simp at ha
  · cases c with
    | nil => simp
    | cons w ws =>
      obtain ⟨rfl, -⟩ := List.cons.inj hc
      exact absurd ho (hts o (by simp))

/-- Complete tokens are legible. -/
theorem legible_loaded {ts : List Token} {e : Token} (hts : ∀ t ∈ ts, t.IsComplete)
    (he : e.lexeme = .eof) {s : State} (hlimit : 0 ≤ s.limit) :
    Legible (s.loaded (ts ++ [e])) := by
  refine ⟨?_, fun t ht => ?_, hlimit⟩
  · rw [State.Ready, State.rest_loaded]
    exact isTerminated_append_singleton ts he
  · rw [State.rest_loaded, List.mem_append, List.mem_singleton] at ht
    rcases ht with ht | rfl
    · exact (hts t ht).2.2
    · simp [he]

/-- What is parsed can be derived. -/
theorem derives_of_parse {ts : List Token} {e : Token} (hts : ∀ t ∈ ts, t.IsComplete)
    (he : e.lexeme = .eof) {s s' : State} (hlimit : 0 ≤ s.limit) {t : Expr}
    (h : parse (ts ++ [e]) s = .ok t s') : ∃ d : Nat, Derives .sum ts t d ∧ d ≤ s.limit := by
  obtain ⟨hread, o, r, hr, ho⟩ := parse_eq_ok (isTerminated_append_singleton ts he) h
  obtain ⟨us, d, hc, hd, hle⟩ := Rule.sum.sound _ (legible_loaded hts he hlimit) hread
  have hrest := hc.rest_eq
  rw [State.rest_loaded, hr] at hrest
  obtain rfl := eq_of_append_eof (fun t ht => (hts t ht).1) ho hrest
  exact ⟨d, hd, by simpa [State.loaded] using hle⟩

/-- What is accepted as a sum is parsed before the end of the input. -/
theorem parse_of_accepts {ts : List Token} {e : Token} (he : e.lexeme = .eof) {s : State}
    (hs : s.arena.released = false) {t : Expr} {d : Nat} (h : Accepts .sum ts t d)
    (hd : d ≤ s.limit) :
    parse (ts ++ [e]) s = .ok t ((s.loaded (ts ++ [e])).after ts.length t.size) := by
  have hterm := isTerminated_append_singleton ts he
  have hb : Before (s.loaded (ts ++ [e])) ts e [] d :=
    ⟨by simp, by simpa [State.loaded] using hd, hs⟩
  have hread := read_sum_eq (s := s.loaded (ts ++ [e]))
    (by rw [State.Ready, State.rest_loaded]; exact hterm)
    (h _ e [] _ hb (by simp [he, productOperator?]) (by simp [he]) (by simp [he])
      (after_settles .sum (hb.rest_after _) (by simp [he, Chain.operator?, sumOperator?]) t))
  rw [parse_eq hterm, bind_of_ok hread, afterSum_eq (hb.rest_after _), if_pos he]

/-- What can be derived is parsed, and its nodes are counted. -/
theorem parse_of_derives {ts : List Token} {e : Token} (he : e.lexeme = .eof) {s : State}
    (hs : s.arena.released = false) {t : Expr} {d : Nat} (h : Derives .sum ts t d)
    (hd : d ≤ s.limit) :
    parse (ts ++ [e]) s = .ok t ((s.loaded (ts ++ [e])).after ts.length t.size) :=
  parse_of_accepts he hs (accepts_of_derives h) hd

/-- The tokens before the end of the input are parsed to an expression exactly if it can be derived
from them with a nesting within the limit, and from no tokens can two expressions be derived. -/
theorem parse_eq_ok_iff_derives {ts : List Token} {e : Token} (hts : ∀ t ∈ ts, t.IsComplete)
    (he : e.lexeme = .eof) {limit : Int} (hlimit : 0 ≤ limit) :
    (∀ t, (∃ s, parse (ts ++ [e]) (State.initial .empty limit) = .ok t s) ↔
      ∃ d : Nat, Derives .sum ts t d ∧ d ≤ limit) ∧
    ∀ t u d d', Derives .sum ts t d → Derives .sum ts u d' → t = u := by
  refine ⟨fun t => ⟨fun ⟨s, h⟩ => derives_of_parse hts he hlimit h, fun ⟨d, h, hd⟩ =>
    ⟨_, parse_of_derives he rfl h hd⟩⟩, fun t u d d' ht hu => ?_⟩
  -- Both expressions are what a parser returns whose limit is great enough for both.
  have hd : (d : Int) ≤ (State.initial .empty (max d d')).limit := Int.le_max_left _ _
  have hd' : (d' : Int) ≤ (State.initial .empty (max d d')).limit := Int.le_max_right _ _
  have hpt := parse_of_derives he (s := State.initial .empty (max d d')) rfl ht hd
  have hpu := parse_of_derives he (s := State.initial .empty (max d d')) rfl hu hd'
  rw [hpt] at hpu
  exact (EStateM.Result.ok.inj hpu).1

/-- The tokens of `-2^2`. -/
private def negatedSquare : List Token :=
  [⟨.minus, ⟨0, 1⟩⟩, ⟨.number (some (.integer ⟨2, rfl⟩)), ⟨1, 2⟩⟩, ⟨.power, ⟨2, 3⟩⟩,
    ⟨.number (some (.integer ⟨2, rfl⟩)), ⟨3, 4⟩⟩]

/-- The sign of `-2^2` stands before the whole power, with a nesting of two. -/
theorem parse_negatedSquare :
    (∀ t ∈ negatedSquare, t.IsComplete) ∧
    ∃ s, parse (negatedSquare ++ [⟨.eof, ⟨4, 4⟩⟩]) (State.initial .empty 2) =
      .ok (.signed .neg (.binary .pow (.literal (.integer ⟨2, rfl⟩) ⟨1, 2⟩)
        (.literal (.integer ⟨2, rfl⟩) ⟨3, 4⟩) ⟨2, 3⟩) ⟨0, 1⟩) s := by
  have hts : ∀ t ∈ negatedSquare, t.IsComplete := by decide
  have hsquare := Derives.raise (o := ⟨.power, ⟨2, 3⟩⟩) rfl
    (.number (t := ⟨.number (some (.integer ⟨2, rfl⟩)), ⟨1, 2⟩⟩) rfl)
    (.power (.primary (.number (t := ⟨.number (some (.integer ⟨2, rfl⟩)), ⟨3, 4⟩⟩) rfl)))
  refine ⟨hts, ((parse_eq_ok_iff_derives hts rfl (by decide)).1 _).mpr ⟨2, ?_, by decide⟩⟩
  exact .product (.signed (.sign (.inr ⟨rfl, rfl⟩) (.power hsquare)))

end Reckoner.Parser
