import Reckoner.Proofs.Parsing.Changes
import Reckoner.Proofs.Scanning.Insertion
import Reckoner.Proofs.Traps.Calculation

/-!
# Blanks never matter

Blanks that are inserted between the tokens of a source change nothing but places: the source is
scanned to the same tokens, and parsing and evaluating hand on the spans without looking at them. So
a calculation gives the same value, or the same fault where the source to blame has moved to.
-/

namespace Reckoner

/-- The tokens of a source come to its result placed anew, if they are placed anew. -/
theorem mapError_result_calculate (place : Span → Span) {source : String} {ts : List Token}
    (h : scan source = .ok ts) (ops : FloatOps) (options : Options) :
    (calculate ops options source).result.mapError (Stop.relocate place) =
      match Parser.parse (ts.map (Token.relocate place)) (.initial .empty options.maxDepth) with
      | .ok e _ => (e.evaluate ops).mapError Stop.fault
      | .error stop _ => .error stop := by
  have hparse := Parser.parse_carries ⟨place, 0, 0⟩ ts (.initial .empty options.maxDepth) (.inl rfl)
  have hinitial : (Parser.State.initial .empty options.maxDepth).change ⟨place, 0, 0⟩ =
      .initial .empty options.maxDepth := by
    simp [Parser.State.change, Parser.State.initial, Arena.empty]
  rw [hinitial] at hparse
  rw [result_calculate h, hparse]
  cases Parser.parse ts (.initial .empty options.maxDepth) with
  | error stop s => rfl
  | ok e s =>
    simp only [Parser.Change.result, Expr.evaluate_relocate]
    cases e.evaluate ops <;> rfl

/-- Tokens at other places are calculated to the same value, or are at fault at other places. -/
theorem result_calculate_relocate {place : Span → Span} {source source' : String}
    {ts : List Token} (h : scan source = .ok ts)
    (h' : scan source' = .ok (ts.map (Token.relocate place))) (ops : FloatOps) (options : Options) :
    (calculate ops options source').result =
      (calculate ops options source).result.mapError (Stop.relocate place) := by
  exact (result_calculate h' ops options).trans (mapError_result_calculate place h ops options).symm

/-- Whatever runs of blanks are inserted between the tokens of a source, before the first of them
and behind the last, a calculation gives the same value, or the same fault at its span in the new
source. There the span of the end of the input is again at the end, and the span of every token
covers the same text. -/
theorem calculate_spaced (ops : FloatOps) (options : Options) {source : String} {ts : List Token}
    (h : scan source = .ok ts) {runs : Nat → List Char} (hs : Spaces runs ts) :
    let spaced := String.ofList (insertRuns runs 0 source.toList)
    ((∃ v, (calculate ops options source).result = .ok v ∧
        (calculate ops options spaced).result = .ok v) ∨
      ∃ f, (calculate ops options source).result = .error (.fault f) ∧
        (calculate ops options spaced).result =
          .error (.fault ⟨f.cause, f.span.spread runs⟩)) ∧
    Span.spread runs ⟨source.length, source.length⟩ = ⟨spaced.length, spaced.length⟩ ∧
    ∀ t ∈ ts, Span.text (t.span.spread runs) spaced.toList = t.span.text source.toList := by
  intro spaced
  have hresult := result_calculate_relocate h (scan_insertRuns h hs) ops options
  refine ⟨?_, ?_, ?_⟩
  · rcases calculate_result ops options source with ⟨v, hv⟩ | ⟨f, hf⟩
    · rw [hv] at hresult
      exact .inl ⟨v, hv, hresult⟩
    · rw [hf] at hresult
      exact .inr ⟨f, hf, hresult⟩
  · rw [Span.spread_length, String.length_ofList]
  · intro t ht
    rw [String.toList_ofList]
    exact text_spread_of_scan h hs ht

/-- A space before each of the first two characters and a tab before the third. -/
private def spaceSpaceTab : Nat → List Char
  | 0 | 1 => [' ']
  | 2 => ['\t']
  | _ => []

/-- In `1e+` a name follows a complete expression, and with blanks inserted the same name does. -/
theorem calculate_spacedName :
    (calculate .machine .default "1e+").result =
      .error (.fault ⟨.trailingInput (.identifier (some "e")), ⟨1, 2⟩⟩) ∧
    (calculate .machine .default " 1 e\t+").result =
      .error (.fault ⟨.trailingInput (.identifier (some "e")), ⟨3, 4⟩⟩) := by
  have hscan : scan "1e+" = .ok [⟨.number (some (.integer ⟨1, rfl⟩)), ⟨0, 1⟩⟩,
      ⟨.identifier (some "e"), ⟨1, 2⟩⟩, ⟨.plus, ⟨2, 3⟩⟩, ⟨.eof, ⟨3, 3⟩⟩] := by decide +kernel
  have hresult : (calculate .machine .default "1e+").result =
      .error (.fault ⟨.trailingInput (.identifier (some "e")), ⟨1, 2⟩⟩) := by decide +kernel
  have hspaces : Spaces spaceSpaceTab [⟨.number (some (.integer ⟨1, rfl⟩)), ⟨0, 1⟩⟩,
      ⟨.identifier (some "e"), ⟨1, 2⟩⟩, ⟨.plus, ⟨2, 3⟩⟩, ⟨.eof, ⟨3, 3⟩⟩] := by
    constructor
    · intro i c hc
      unfold spaceSpaceTab at hc
      split at hc <;> simp_all [IsBlank]
    · intro t ht i hi hlt
      simp only [List.mem_cons, List.not_mem_nil, or_false] at ht
      rcases ht with rfl | rfl | rfl | rfl <;> (dsimp only at hi hlt; omega)
  rcases (calculate_spaced .machine .default hscan hspaces).1 with ⟨v, hv, -⟩ | ⟨f, hf, hspaced⟩
  · rw [hresult] at hv
    cases hv
  · rw [hresult] at hf
    cases hf
    exact ⟨hresult, hspaced⟩

end Reckoner
