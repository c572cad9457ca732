import Mathlib.Data.List.Induction
import Reckoner.Proofs.Lexicon

/-!
# What numerals are read as

The number that a scan makes of digits is the one that they write in the decimal system, and the
double that it makes of a numeral is the one that the text is read as in free form: of the blanks,
underscores, signs and special values of that form a numeral has none.
-/

namespace Reckoner

open Text

theorem isDigit_iff {c : Char} : c.isDigit = true ↔ 48 ≤ c.toNat ∧ c.toNat ≤ 57 := by
  simp [Char.isDigit, UInt32.le_iff_toNat_le]

theorem isAlpha_iff {c : Char} :
    c.isAlpha = true ↔ 65 ≤ c.toNat ∧ c.toNat ≤ 90 ∨ 97 ≤ c.toNat ∧ c.toNat ≤ 122 := by
  have halpha : c.isAlpha = (c.isUpper || c.isLower) := rfl
  have hupper : c.isUpper = decide (65 ≤ c.val ∧ c.val ≤ 90) := rfl
  have hlower : c.isLower = (decide (97 ≤ c.val) && decide (c.val ≤ 122)) := rfl
  simp [halpha, hupper, hlower, UInt32.le_iff_toNat_le]

/-- Digits that are read from the left write a number in the decimal system. -/
theorem natOfDigits_eq_decimalValue (ds : List Char) : natOfDigits ds = decimalValue ds := by
  induction ds using List.reverseRecOn with
  | nil => rfl
  | append_singleton ds c ih =>
    rw [natOfDigits_append_singleton, ih, decimalValue, decimalValue, List.reverse_append,
      List.reverse_singleton, List.singleton_append, List.map_cons, Nat.ofDigits_cons, Nat.add_comm]

/-- The characters of a numeral: digits, the point, the mark and the sign of the exponent. -/
def IsNumeralChar (c : Char) : Prop := c.isDigit = true ∨ c ∈ ['.', 'e', 'E', '+', '-']

/-- A numeral has only characters of numerals. -/
theorem Numeral.WellFormed.isNumeralChar {n : Numeral} (hn : n.WellFormed) {c : Char}
    (hc : c ∈ n.text) : IsNumeralChar c := by
  have hdigit : ∀ {ds : List Char}, ds.all Char.isDigit = true → c ∈ ds → IsNumeralChar c :=
    fun hds h => .inl (List.all_eq_true.mp hds c h)
  rw [Numeral.text, Numeral.mantissa, List.mem_append, List.mem_append] at hc
  rcases hc with (hc | hc) | hc
  · exact hdigit hn.whole hc
  · cases hf : n.fraction with
    | none => simp [hf] at hc
    | some ds =>
      rw [hf, Option.elim, List.mem_cons] at hc
      rcases hc with rfl | hc
      · exact .inr (by decide)
      · exact hdigit (hn.fraction ds hf) hc
  · cases he : n.exponent with
    | none => simp [he] at hc
    | some e =>
      have hwf := hn.exponent e he
      simp only [he, Option.elim, Exponent.text, List.mem_cons, List.mem_append,
        Option.mem_toList] at hc
      rcases hc with rfl | hc | hc
      · exact .inr (by rcases hwf.mark with h | h <;> rw [h] <;> decide)
      · exact .inr (by rcases hwf.sign c hc with h | h <;> rw [h] <;> decide)
      · exact hdigit hwf.digits hc

/-- A numeral starts with a digit or the point. -/
theorem Numeral.WellFormed.exists_head {n : Numeral} (hn : n.WellFormed) :
    ∃ c r, n.text = c :: r ∧ (c.isDigit = true ∨ c = '.') := by
  unfold Numeral.text Numeral.mantissa
  cases hw : n.whole with
  | cons c r =>
    exact ⟨c, _, rfl, .inl (List.all_eq_true.mp hn.whole c (by rw [hw]; exact List.mem_cons_self))⟩
  | nil =>
    obtain ⟨ds, hds, -⟩ := hn.nonempty.resolve_left fun h => h hw
    rw [Option.mem_def.mp hds]
    exact ⟨'.', _, rfl, .inr rfl⟩

/-- A character of a numeral stands for itself in free form. -/
theorem IsNumeralChar.plain {c : Char} (h : IsNumeralChar c) : isWhiteSpace c = false ∧ c ≠ '_' ∧
    ((digitValue? c).map fun n => Char.ofNat (48 + n)).getD c = c := by
  rcases h with h | h
  · obtain ⟨hlow, hhigh⟩ := isDigit_iff.mp h
    refine ⟨?_, by rintro rfl; simp at h, ?_⟩
    · simp [isWhiteSpace]
      omega
    · rw [digitValue?_of_isDigit h, Option.map_some, Option.getD_some, Nat.add_sub_cancel' hlow,
        Char.ofNat_toNat]
  · simp only [List.mem_cons, List.not_mem_nil, or_false] at h
    rcases h with rfl | rfl | rfl | rfl | rfl <;> decide

/-- A text without characters of the class is not trimmed. -/
theorem trimBoth_of_forall {p : Char → Bool} {cs : List Char} (h : ∀ c ∈ cs, p c = false) :
    trimBoth p cs = cs := by
  have hdrop : ∀ ds : List Char, (∀ c ∈ ds, p c = false) → ds.dropWhile p = ds := by
    intro ds hds
    cases ds with
    | nil => rfl
    | cons d ds => rw [List.dropWhile_cons_of_neg (by simp [hds d List.mem_cons_self])]
  rw [trimBoth, trimEnd, hdrop cs h, hdrop cs.reverse (by simpa using h), List.reverse_reverse]

/-- In a text without underscores none is dropped. -/
theorem joinDigits?_of_forall {cs : List Char} (h : ∀ c ∈ cs, c ≠ '_') :
    joinDigits? cs = some cs := by
  fun_induction joinDigits? cs with
  | case1 => rfl
  | case2 cs => exact absurd rfl (h '_' List.mem_cons_self)
  | case3 c d cs _ _ => exact absurd rfl (h '_' (by simp))
  | case4 c d cs _ => exact absurd rfl (h '_' (by simp))
  | case5 c cs _ _ ih =>
    rw [ih fun x hx => h x (List.mem_cons_of_mem _ hx)]
    rfl

/-- A text that starts with a digit or the point has no sign and is no special value. -/
theorem unsigned_of_head {c : Char} (hc : c.isDigit = true ∨ c = '.') (r : List Char) :
    takeSign (c :: r) = (none, c :: r) ∧ specialFloat? (c :: r) = none := by
  have hchar : c.toLower = c ∧ c ∉ ['+', '-', 'i', 'n'] := by
    rcases hc with hc | rfl
    · obtain ⟨hlow, hhigh⟩ := isDigit_iff.mp hc
      have hupper : ¬(c.val ≥ 'A'.val ∧ c.val ≤ 'Z'.val) := by
        simp [UInt32.le_iff_toNat_le]
        omega
      refine ⟨dif_neg hupper, fun hmem => ?_⟩
      simp only [List.mem_cons, List.not_mem_nil, or_false] at hmem
      rcases hmem with rfl | rfl | rfl | rfl <;> simp at hc
    · decide
  simp only [List.mem_cons, List.not_mem_nil, or_false, not_or] at hchar
  obtain ⟨hlower, hplus, hminus, hi, hn⟩ := hchar
  constructor
  · simp [takeSign, hplus, hminus]
  · have hne : ∀ {d : Char} {w : List Char}, c ≠ d →
        String.ofList ((c :: r).map Char.toLower) ≠ String.ofList (d :: w) := by
      intro d w hd h
      rw [String.ofList_inj, List.map_cons, hlower] at h
      exact hd (List.cons.inj h).1
    have hinf := hne (w := ['n', 'f']) hi
    have hinfinity := hne (w := ['n', 'f', 'i', 'n', 'i', 't', 'y']) hi
    have hnan := hne (w := ['a', 'n']) hn
    simp_all [specialFloat?]

/-- A numeral is read in free form as the double nearest to it. -/
theorem Numeral.WellFormed.readFreeFloat?_text {n : Numeral} (hn : n.WellFormed) :
    readFreeFloat? (String.ofList n.text) = some n.value.toFloat := by
  have hplain : plainDigits n.text = n.text := by
    rw [plainDigits, trimBoth_of_forall fun c hc => (hn.isNumeralChar hc).plain.1]
    exact (List.map_congr_left fun c hc => (hn.isNumeralChar hc).plain.2.2).trans (List.map_id' _)
  obtain ⟨c, r, htext, hc⟩ := hn.exists_head
  obtain ⟨hsign, hspecial⟩ := unsigned_of_head hc r
  rw [readFreeFloat?, String.toList_ofList, hplain,
    joinDigits?_of_forall fun c hc => (hn.isNumeralChar hc).plain.2.1, Option.bind_some, readFloat?]
  rw [htext, hsign]
  simp only [hspecial]
  rw [← htext, Numeral.ofText?, Numeral.take_text hn]
  rfl

end Reckoner
