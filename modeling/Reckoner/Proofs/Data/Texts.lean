import Reckoner.Log.Data

/-!
# Escaped texts are read back

An escaped text holds nothing but printable ASCII characters, and the reader gives back the text
that was escaped, whatever follows its closing quote.
-/

namespace Reckoner.Data

open Text

/-! ### Units -/

/-- A hexadecimal digit is read back. -/
theorem hexValue?_digitChar : ∀ d < 16, hexValue? (Nat.digitChar d) = some d := by
  decide

/-- The last digit of a number comes off its end, whatever the width. -/
theorem hexDigits_succ {width : Nat} (hwidth : 0 < width) (n : Nat) :
    hexDigits (width + 1) n = hexDigits width (n / 16) ++ [Nat.digitChar (n % 16)] := by
  obtain ⟨w, rfl⟩ := Nat.exists_eq_add_of_lt hwidth
  simp only [hexDigits, Nat.zero_add]
  by_cases h : n < 16
  · rw [Nat.toDigits_of_lt_base h, Nat.div_eq_of_lt h, Nat.mod_eq_of_lt h]
    simp [Nat.toDigits_zero, List.replicate_succ']
  · rw [Nat.toDigits_eq_if (by decide), if_neg h, List.length_append, List.length_singleton,
      Nat.add_sub_add_right, List.append_assoc]

/-- The four digits of a unit. -/
theorem hexDigits_four {n : Nat} (h : n < 65536) : hexDigits 4 n =
    [Nat.digitChar (n / 4096), Nat.digitChar (n / 256 % 16), Nat.digitChar (n / 16 % 16),
      Nat.digitChar (n % 16)] := by
  have hone : ∀ d < 16, hexDigits 1 d = [Nat.digitChar d] := by decide
  rw [hexDigits_succ (by decide), hexDigits_succ (by decide), hexDigits_succ (by decide),
    hone _ (by omega)]
  simp only [Nat.div_div_eq_div_mul]
  rfl

/-- A unit is read back. -/
theorem readUnit?_hexDigits {n : Nat} (h : n < 65536) (cs : List Char) :
    readUnit? (hexDigits 4 n ++ cs) = some (n, cs) := by
  rw [hexDigits_four h]
  simp only [List.cons_append, List.nil_append, readUnit?]
  rw [hexValue?_digitChar _ (by omega), hexValue?_digitChar _ (by omega),
    hexValue?_digitChar _ (by omega), hexValue?_digitChar _ (by omega)]
  simp only [Option.some.injEq, Prod.mk.injEq, and_true]
  omega

/-- The code point of a character is none of those that make up pairs. -/
theorem toNat_range (c : Char) : c.toNat < 0xD800 ∨ 0xDFFF < c.toNat ∧ c.toNat < 0x110000 :=
  c.valid

/-- A character of one unit is read back. -/
theorem readUnits?_one {c : Char} (h : c.toNat < 0x10000) (cs : List Char) :
    readUnits? (hexDigits 4 c.toNat ++ cs) = some (c, cs) := by
  have hc := toNat_range c
  rw [readUnits?, readUnit?_hexDigits h]
  simp only
  rw [if_neg (by omega), if_neg (by omega), Char.ofNat_toNat]

/-- A character of two units is read back. -/
theorem readUnits?_two {c : Char} (h : 0x10000 ≤ c.toNat) (cs : List Char) :
    readUnits? (hexDigits 4 (0xD800 + (c.toNat - 0x10000) / 0x400) ++
      (escapedUnit (0xDC00 + (c.toNat - 0x10000) % 0x400) ++ cs)) = some (c, cs) := by
  have hc := toNat_range c
  rw [readUnits?, readUnit?_hexDigits (by omega)]
  simp only
  rw [if_pos (by omega), escapedUnit, List.cons_append, List.cons_append, readSecondUnit?,
    readUnit?_hexDigits (by omega)]
  simp only
  rw [if_pos (by omega)]
  have hn : 0x10000 + (0xD800 + (c.toNat - 0x10000) / 0x400 - 0xD800) * 0x400 +
      (0xDC00 + (c.toNat - 0x10000) % 0x400 - 0xDC00) = c.toNat := by omega
  rw [hn, Char.ofNat_toNat]

/-! ### Texts -/

variable {n : Nat}

/-- An escape in a text. -/
theorem readTextWithin_escape {cs rest : List Char} {c : Char}
    (h : readEscape? cs = some (c, rest)) :
    readTextWithin (n + 1) ('\\' :: cs) = (readTextWithin n rest).map fun r => (c :: r.1, r.2) := by
  simp only [readTextWithin, h]

/-- A character that stands for itself in a text. -/
theorem readTextWithin_plain {c : Char} (hquote : c ≠ '\x22') (hslash : c ≠ '\\')
    (hc : 0x20 ≤ c.toNat) (cs : List Char) :
    readTextWithin (n + 1) (c :: cs) = (readTextWithin n cs).map fun r => (c :: r.1, r.2) := by
  rw [readTextWithin]
  · rw [if_neg (by omega)]
  · exact hquote
  · exact hslash

/-- A letter that stands for a character is read back. -/
private theorem readTextWithin_letter {c d : Char} (hd : d ≠ 'u') (h : letters.lookup d = some c)
    (cs : List Char) : readTextWithin (n + 1) (['\\', d] ++ cs) =
      (readTextWithin n cs).map fun r => (c :: r.1, r.2) := by
  have hescape : readEscape? (d :: cs) = some (c, cs) := by
    unfold readEscape?
    split
    · rename_i heq
      cases heq
      exact absurd rfl hd
    · rename_i heq
      cases heq
      rw [h, Option.map_some]
    · rename_i heq
      cases heq
  exact readTextWithin_escape hescape

/-- A character that is written by its units is read back. -/
private theorem readTextWithin_units {m : Nat} {cs rest : List Char} {c : Char}
    (h : readUnits? (hexDigits 4 m ++ cs) = some (c, rest)) :
    readTextWithin (n + 1) (escapedUnit m ++ cs) =
      (readTextWithin n rest).map fun r => (c :: r.1, r.2) := by
  rw [escapedUnit, List.cons_append, List.cons_append]
  refine readTextWithin_escape ?_
  rw [readEscape?]
  exact h

/-- An escaped character is read back. -/
theorem readTextWithin_escapedChar (n : Nat) (c : Char) (cs : List Char) :
    readTextWithin (n + 1) (escapedChar c ++ cs) =
      (readTextWithin n cs).map fun r => (c :: r.1, r.2) := by
  unfold escapedChar
  split
  · rename_i h
    rcases (Bool.or_eq_true _ _).mp h with h | h <;>
      (rw [beq_iff_eq.mp h]
       exact readTextWithin_letter (by decide) rfl cs)
  iterate 5
    split
    · rename_i h
      rw [beq_iff_eq.mp h]
      exact readTextWithin_letter (by decide) rfl cs
  split
  · rename_i hquote _ _ _ _ _ hplain
    simp only [Bool.or_eq_true, beq_iff_eq, not_or] at hquote
    simp only [Bool.and_eq_true, decide_eq_true_eq] at hplain
    exact readTextWithin_plain hquote.1 hquote.2 hplain.1 cs
  split
  · rename_i h
    exact readTextWithin_units (readUnits?_one h cs)
  · rename_i h
    dsimp only
    rw [List.append_assoc]
    exact readTextWithin_units (readUnits?_two (by omega) cs)

/-- An escaped text is read back within as many steps as it has characters, and one more for its
closing quote. -/
private theorem readTextWithin_escaped {s : List Char} (h : s.length < n) (cs : List Char) :
    readTextWithin n (s.flatMap escapedChar ++ '\x22' :: cs) = some (s, cs) := by
  induction s generalizing n with
  | nil =>
    obtain ⟨n, rfl⟩ := Nat.exists_eq_succ_of_ne_zero (Nat.ne_zero_of_lt h)
    rw [List.flatMap_nil, List.nil_append, readTextWithin]
  | cons c s ih =>
    obtain ⟨n, rfl⟩ := Nat.exists_eq_succ_of_ne_zero (Nat.ne_zero_of_lt h)
    rw [List.flatMap_cons, List.append_assoc, readTextWithin_escapedChar,
      ih (Nat.lt_of_succ_lt_succ h), Option.map_some]

/-- An escaped character takes some space. -/
theorem escapedChar_ne_nil (c : Char) : escapedChar c ≠ [] := by
  unfold escapedChar
  split
  · exact List.cons_ne_nil _ _
  iterate 6
    split
    · exact List.cons_ne_nil _ _
  split
  · exact List.cons_ne_nil _ _
  · exact List.cons_ne_nil _ _

/-- Escaping makes no text shorter. -/
theorem length_le_flatMap_escapedChar (s : List Char) :
    s.length ≤ (s.flatMap escapedChar).length := by
  induction s with
  | nil => exact Nat.le_refl _
  | cons c s ih =>
    have hc := List.length_pos_iff.mpr (escapedChar_ne_nil c)
    rw [List.flatMap_cons, List.length_append, List.length_cons]
    omega

/-- An escaped text is read back. -/
theorem readText?_escaped (s cs : List Char) :
    readText? (s.flatMap escapedChar ++ '\x22' :: cs) = some (s, cs) := by
  have hlength := length_le_flatMap_escapedChar s
  apply readTextWithin_escaped
  rw [List.length_append, List.length_cons]
  omega

/-! ### Printable characters -/

/-- A printable ASCII character. -/
def IsPlain (c : Char) : Prop := 0x20 ≤ c.toNat ∧ c.toNat ≤ 0x7E

instance (c : Char) : Decidable (IsPlain c) := inferInstanceAs (Decidable (_ ∧ _))

/-- A unit is written with printable characters. -/
theorem isPlain_of_mem_escapedUnit {n : Nat} (h : n < 65536) {c : Char} (hc : c ∈ escapedUnit n) :
    IsPlain c := by
  have hdigit : ∀ d < 16, IsPlain (Nat.digitChar d) := by decide
  rw [escapedUnit, hexDigits_four h] at hc
  simp only [List.mem_cons, List.not_mem_nil, or_false] at hc
  rcases hc with rfl | rfl | rfl | rfl | rfl | rfl
  · decide
  · decide
  · exact hdigit _ (by omega)
  · exact hdigit _ (by omega)
  · exact hdigit _ (by omega)
  · exact hdigit _ (by omega)

/-- A character behind a backslash is printable if it is. -/
private theorem isPlain_of_mem_pair {c d : Char} (hc : IsPlain c) (h : d ∈ ['\\', c]) :
    IsPlain d := by
  rcases List.mem_cons.mp h with rfl | h
  · decide
  · rw [List.mem_singleton.mp h]
    exact hc

/-- A character is escaped by printable characters. -/
theorem isPlain_of_mem_escapedChar {c d : Char} (h : d ∈ escapedChar c) : IsPlain d := by
  have hc := toNat_range c
  unfold escapedChar at h
  split at h
  · rename_i heq
    refine isPlain_of_mem_pair ?_ h
    rcases (Bool.or_eq_true _ _).mp heq with heq | heq <;>
      (rw [beq_iff_eq.mp heq]
       decide)
  iterate 5
    split at h
    · exact isPlain_of_mem_pair (by decide) h
  split at h
  · rename_i hplain
    simp only [Bool.and_eq_true, decide_eq_true_eq] at hplain
    rw [List.mem_singleton.mp h]
    exact hplain
  split at h
  · rename_i hone
    exact isPlain_of_mem_escapedUnit hone h
  · rcases List.mem_append.mp h with h | h
    · exact isPlain_of_mem_escapedUnit (by omega) h
    · exact isPlain_of_mem_escapedUnit (by omega) h

/-- An escaped text is printable. -/
theorem isPlain_of_mem_escaped {s : String} {c : Char} (h : c ∈ (escaped s).toList) :
    IsPlain c := by
  rw [escaped, String.toList_ofList, List.cons_append, List.mem_cons, List.mem_append,
    List.mem_singleton] at h
  rcases h with rfl | h | rfl
  · decide
  · obtain ⟨d, -, hd⟩ := List.mem_flatMap.mp h
    exact isPlain_of_mem_escapedChar hd
  · decide

end Reckoner.Data
