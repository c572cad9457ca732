import Reckoner.Calculation
import Reckoner.Proofs.Parsing.Sequence
import Reckoner.Proofs.Traps.Scanning

/-!
# Calculations never trap

A calculation with traps scans, parses and evaluates its source with a library. Where the library
does what is documented, every calculation ends with a value or with a fault of the source, and with
the same as the calculation that cannot trap.
-/

namespace Reckoner

/-- The result of a calculation whose source is scanned is that of its last two stages. -/
theorem result_calculate {source : String} {ts : List Token} (h : scan source = .ok ts)
    (ops : FloatOps) (options : Options) : (calculate ops options source).result =
      match Parser.parse ts (.initial .empty options.maxDepth) with
      | .ok e _ => (e.evaluate ops).mapError Stop.fault
      | .error stop _ => .error stop := by
  unfold calculate
  rw [h]
  simp only [Calculation.after, Calculation.parsing]
  cases Parser.parse ts (.initial .empty options.maxDepth) with
  | error stop s => rfl
  | ok e s =>
    simp only [Calculation.evaluating]
    cases e.evaluate ops <;> rfl

/-- A calculation whose source is not scanned ends with the fault of the scan. -/
theorem result_calculate_of_error {source : String} {f : Fault} (h : scan source = .error f)
    (ops : FloatOps) (options : Options) :
    (calculate ops options source).result = .error (.fault f) := by
  unfold calculate
  rw [h]

/-- A calculation ends with a value or with a fault of its source: its tokens end with the end of
the input and carry their values, and its arena is not released. -/
theorem calculate_result (ops : FloatOps) (options : Options) (source : String) :
    (∃ v, (calculate ops options source).result = .ok v) ∨
      ∃ f, (calculate ops options source).result = .error (.fault f) := by
  unfold calculate
  cases hscan : scan source with
  | error f => exact .inr ⟨f, rfl⟩
  | ok tokens =>
    obtain ⟨us, e, rfl, he, hus⟩ := scanFrom_tokens hscan
    have hvalues : ∀ t ∈ us ++ [e], t.lexeme ≠ .number none := by
      intro t ht
      rw [List.mem_append, List.mem_singleton] at ht
      rcases ht with ht | rfl
      · exact (hus t ht).2.1
      · simp [he]
    simp only [Calculation.after, Calculation.parsing]
    rcases Parser.parse_ends (Parser.isTerminated_append_singleton us he) hvalues
      (s := .initial .empty options.maxDepth) rfl with ⟨t, s, hp⟩ | ⟨f, s, hp⟩
    · rw [hp]
      simp only [Calculation.evaluating]
      cases t.evaluate ops with
      | ok v => exact .inl ⟨v, rfl⟩
      | error f => exact .inr ⟨f, rfl⟩
    · rw [hp]
      exact .inr ⟨f, rfl⟩

/-- Parse the tokens of a source with a fresh arena. -/
def parsed (tokens : List Token) (limit : Int) : Except Trap Expr :=
  match Parser.parse tokens (.initial .empty limit) with
  | .ok e _ => .ok e
  | .error stop _ => .error (.ofStop stop)

namespace Library

/-- Scan, parse and evaluate an expression with a library. -/
def calculate (lib : Library) (options : Options) (source : String) : Except Trap Value := do
  let tokens ← lib.scanAt source.toList 0
  let e ← parsed tokens options.maxDepth
  lib.evaluate e

variable {lib : Library}

/-- The outcome is that of the calculation that cannot trap. -/
theorem Documented.calculate_eq (h : lib.Documented) (options : Options) (source : String) :
    lib.calculate options source =
      (Reckoner.calculate lib.toOps options source).result.mapError .ofStop := by
  unfold Library.calculate Reckoner.calculate parsed
  rw [h.scanAt_eq source.toList (Nat.zero_le _), List.drop_zero, scan]
  cases scanFrom source.toList 0 0 with
  | error f => rfl
  | ok tokens =>
    simp only [raised_ok, ok_then, Calculation.after, Calculation.parsing]
    cases Parser.parse tokens (.initial .empty options.maxDepth) with
    | error stop s => rfl
    | ok e s =>
      simp only [ok_then, h.evaluate_eq, Calculation.evaluating]
      cases e.evaluate lib.toOps <;> rfl

/-- Every calculation ends with an integer within 64 bits, with a double or with a fault, and with
nothing else that its steps can trap with, and so does the calculation that cannot trap. -/
theorem Documented.calculate_ends (h : lib.Documented) (options : Options) (source : String) :
    ((∃ n : Integer, lib.calculate options source = .ok (.integer n) ∧
        -9223372036854775808 ≤ n.val ∧ n.val ≤ 9223372036854775807) ∨
      (∃ x, lib.calculate options source = .ok (.float x)) ∨
      ∃ f, lib.calculate options source = .error (.fault f)) ∧
    lib.calculate options source =
      (Reckoner.calculate lib.toOps options source).result.mapError .ofStop := by
  refine ⟨?_, h.calculate_eq options source⟩
  rw [h.calculate_eq options source]
  rcases calculate_result lib.toOps options source with ⟨v, hv⟩ | ⟨f, hf⟩
  · rw [hv]
    cases v with
    | integer n => exact .inl ⟨n, rfl, fitsInteger_iff.mp n.fits⟩
    | float x => exact .inr (.inl ⟨x, rfl⟩)
  · rw [hf]
    exact .inr (.inr ⟨f, rfl⟩)

/-- With the primitives of the machine, a remainder takes the sign of the dividend. -/
theorem calculate_machine : machine.Documented ∧
    (machine.calculate .default "-7 % 4").toOption = some (.integer ⟨-3, rfl⟩) := by
  refine ⟨documented_machine, ?_⟩
  rw [(documented_machine.calculate_ends .default "-7 % 4").2]
  decide +kernel

end Library

end Reckoner
