import Reckoner.Proofs.Blame
import Reckoner.Proofs.Data.Figures
import Reckoner.Proofs.Parsing.Causes
import Reckoner.Proofs.Scanning.Insertion

/-!
# Wordings on one row

No wording of a fault has a line feed in it: numbers and names have none, a character that is quoted
is escaped, and all else is fixed. So a fault is worded on one row, whatever its source looks like.
-/

namespace Reckoner

open Text

/-- A text without line feeds. -/
def IsRow (s : String) : Prop := '\n' ∉ s.toList

instance (s : String) : Decidable (IsRow s) := inferInstanceAs (Decidable (¬ _))

section Texts

variable {s t : String} {cs : List Char}

@[simp] theorem isRow_append : IsRow (s ++ t) ↔ IsRow s ∧ IsRow t := by
  simp [IsRow, not_or]

@[simp] theorem isRow_ofList : IsRow (String.ofList cs) ↔ '\n' ∉ cs := by
  rw [IsRow, String.toList_ofList]

/-- No digit is a line feed. -/
theorem newline_not_mem_toDigits {b : Nat} (hb : 1 < b) (n : Nat) : '\n' ∉ Nat.toDigits b n := by
  induction n using Nat.strongRecOn with
  | ind n ih =>
    rw [Nat.toDigits_eq_if hb]
    split
    · simp
    · simpa using ih _ (Nat.div_lt_self (by omega) hb)

theorem isRow_toString_nat (n : Nat) : IsRow (toString n) := by
  rw [Nat.toString_eq_repr, Nat.repr_eq_ofList_toDigits, isRow_ofList]
  exact newline_not_mem_toDigits (by decide) n

theorem isRow_toString_int (n : Int) : IsRow (toString n) := by
  intro h
  rcases isDigit_or_eq_of_mem_toString h with hdigit | hdash
  · exact absurd hdigit (by decide)
  · exact absurd hdash (by decide)

/-- A line feed in a text is quoted by a letter. -/
theorem isRow_quoted (s : String) : IsRow (quoted s) := by
  have hquote (cs : List Char) : '\n' ≠ quoteFor cs := by
    unfold quoteFor
    split <;> decide
  have hhex (width n : Nat) : '\n' ∉ hexDigits width n := by
    simp [hexDigits, newline_not_mem_toDigits]
  have hchar (q c : Char) (hq : '\n' ≠ q) : '\n' ∉ quotedChar q c := by
    by_cases hc : '\n' = c
    · subst hc
      simp [quotedChar, hq]
    · unfold quotedChar
      split_ifs <;> simp [hc, hhex]
  rw [quoted, isRow_ofList]
  simp only [List.mem_append, List.mem_cons, List.mem_flatMap, List.not_mem_nil, or_false, not_or,
    not_exists, not_and]
  exact ⟨⟨hquote _, fun c _ => hchar _ c (hquote _)⟩, hquote _⟩

/-- A double is written on one row, in either notation. -/
theorem isRow_floatText (x : Float) : IsRow (floatText x) :=
  fun h => absurd (isFigure_of_mem_floatText h) (by decide)

/-- The text of a value is on one row. -/
theorem Value.isRow_text (v : Value) : IsRow v.text := by
  cases v with
  | integer n => exact isRow_toString_int n.val
  | float x => exact isRow_floatText x

end Texts

/-- A lexeme that carries no name, or one without line feeds. -/
def Lexeme.IsInRow (l : Lexeme) : Prop := ∀ n, l = .identifier (some n) → IsRow n

section Wordings

variable {l : Lexeme} {t : Token} {cs source : List Char} {c : Cause} {f : Fault} {p : Nat}
  {ops : FloatOps}

/-- The texts of tokens have no line feeds in them. -/
theorem IsLexical.newline_not_mem (h : IsLexical cs) : '\n' ∉ cs :=
  fun hc => h.not_isBlank hc (by decide)

/-- A lexeme that is written as a text without blanks carries no line feed. -/
theorem Writes.isInRow (h : Writes l cs) : l.IsInRow := by
  rintro n rfl
  cases h with
  | sign h => cases h
  | name h => exact isRow_ofList.mpr (IsLexical.newline_not_mem (.inr (.inl h)))

theorem Lexeme.IsInRow.isRow_describe (h : l.IsInRow) : IsRow l.describe := by
  cases l with
  | number v =>
    have hvalue : IsRow (v.elim "None" Value.text) := by
      cases v with
      | none => decide
      | some v => exact v.isRow_text
    simpa [describe, display, IsRow] using hvalue
  | identifier n =>
    have hname : IsRow (n.getD "None") := by
      cases n with
      | none => decide
      | some n => exact h n rfl
    simpa [describe, display, IsRow] using hname
  | _ => decide

/-- The name that a token carries. -/
private theorem isRow_name (h : t.lexeme.IsInRow) : IsRow (t.name?.getD "None") := by
  unfold Token.name?
  split
  · rename_i n hn
    cases n with
    | none => decide
    | some n => exact h n hn
  · decide

/-- What a parser finds at a token is worded on one row. -/
theorem Cause.FoundAt.isRow_message (h : c.FoundAt t) (ht : t.lexeme.IsInRow) :
    IsRow c.message := by
  have hdescribe := ht.isRow_describe
  cases h with
  | primary | unclosed | trailing =>
    refine isRow_append.mpr ⟨?_, hdescribe⟩
    simp [primaryWanted, IsRow]
  | function =>
    unfold message unknownFunctionWanted
    simpa [IsRow] using And.intro (isRow_name ht) hdescribe
  | tooDeep limit =>
    unfold message
    simp only [isRow_append, and_assoc]
    refine ⟨?_, isRow_toString_int limit, ?_, hdescribe⟩ <;> simp [IsRow]

/-- What a scan refuses is worded on one row: a character is quoted, and a literal has no blanks. -/
theorem Refuses.isRow_message (h : Refuses source p f) : IsRow f.message := by
  cases h with
  | character =>
    unfold Fault.message Cause.message
    simpa [IsRow] using isRow_quoted _
  | tooManyDigits h _ _ =>
    have hreason (n m : Nat) : IsRow (Cause.tooManyDigitsReason n m) := by
      unfold Cause.tooManyDigitsReason
      simp only [isRow_append, and_assoc]
      refine ⟨?_, isRow_toString_nat n, ?_, isRow_toString_nat m, ?_⟩ <;> simp [IsRow]
    unfold Fault.message Cause.message
    simp only [isRow_append, isRow_ofList, and_assoc]
    refine ⟨?_, h.lexical.newline_not_mem, ?_, hreason _ _⟩ <;> simp [IsRow]
  | outOfRange h _ _ _ =>
    unfold Fault.message Cause.message
    simpa [Cause.outOfRangeReason, IsRow] using h.lexical.newline_not_mem

/-! ### Faults of evaluation -/

variable {s : Span} {v w : Value}

private theorem isRow_divisionByZero : IsRow Cause.divisionByZero.message := by decide

private theorem isRow_overflow {operation : String} (h : IsRow operation) :
    IsRow (Cause.overflow operation).message :=
  isRow_append.mpr ⟨by simp [IsRow], h⟩

/-- The words of a function are fixed. -/
private theorem Function.isRow_words (g : Function) : IsRow g.name ∧ IsRow g.requirement := by
  cases g <;> decide

private theorem isRow_wrongArgumentCount (g : Function) (expected got : Int) :
    IsRow (Cause.wrongArgumentCount g.name expected got).message := by
  have hplural : IsRow (if expected = 1 then "" else "s") := by split <;> decide
  unfold Cause.message
  simp only [isRow_append, and_assoc]
  refine ⟨g.isRow_words.1, ?_, isRow_toString_int _, ?_, hplural, ?_, isRow_toString_int _⟩ <;>
    simp [IsRow]

private theorem BinaryOp.isRow_message {op : BinaryOp} (h : op.apply ops s v w = .error f) :
    IsRow f.message := by
  cases op with
  | add | sub | mul =>
    obtain rfl := arithmetic_eq_error h
    exact isRow_overflow (by simp [IsRow])
  | div =>
    simp only [apply, quotient] at h
    split at h
    · cases h
      exact isRow_divisionByZero
    · cases h
  | mod =>
    simp only [apply] at h
    unfold remainder at h
    split at h
    · split at h
      · cases h
        exact isRow_divisionByZero
      · cases h
    · cases h
      exact show IsRow Cause.floatModulo.message by decide
  | pow => cases h

private theorem Sign.isRow_message {sg : Sign} (h : sg.apply ops s v = .error f) :
    IsRow f.message := by
  unfold apply at h
  split at h
  · cases h
  · obtain rfl := checkedInteger_eq_error h
    exact isRow_overflow (by simp [IsRow])
  · cases h

private theorem Function.isRow_message {g : Function} {vs : List Value}
    (h : g.apply ops s vs = .error f) : IsRow f.message := by
  unfold apply at h
  split at h
  · cases h
    exact isRow_wrongArgumentCount g _ _
  · split at h
    · obtain rfl := checkedInteger_eq_error h
      exact isRow_overflow g.isRow_words.1
    · unfold applyFloats at h
      split at h
      · cases h
        unfold Fault.message Cause.message
        simp only [isRow_append, and_assoc]
        refine ⟨?_, g.isRow_words.1, ?_, isRow_floatText _, ?_, g.isRow_words.2, ?_⟩ <;>
          simp [IsRow]
      · split at h
        · cases h
        · cases h
          exact isRow_wrongArgumentCount g _ _

private theorem isRow_nameValue {n : String} (h : nameValue n s = .error f) (hn : IsRow n) :
    IsRow f.message := by
  unfold nameValue at h
  split at h
  · cases h
  · cases h
    unfold Fault.message Cause.message
    simpa [IsRow] using hn

/-- A fault of evaluation blames the token of a node, and is worded on one row if that token
carries no line feed. -/
theorem nodeFaults_isRow (ops : FloatOps) :
    NodeFaults ops fun f t => f.BlamesToken t ∧ (t.lexeme.IsInRow → IsRow f.message) where
  name h := ⟨blamesToken_of_nameValue h, fun hn => isRow_nameValue h (hn _ rfl)⟩
  binary h := ⟨BinaryOp.blamesToken_of_apply h, fun _ => BinaryOp.isRow_message h⟩
  signed h := ⟨Sign.blamesToken_of_apply h, fun _ => Sign.isRow_message h⟩
  call h := ⟨Function.blamesToken_of_apply h, fun _ => Function.isRow_message h⟩

end Wordings

end Reckoner
