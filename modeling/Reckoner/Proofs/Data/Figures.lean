import Mathlib.Data.List.DropRight
import Reckoner.Proofs.Data.Numbers
import Reckoner.Value

/-!
# The characters of numbers

A whole number is written with digits after an optional dash. A double is written with digits, a
point, an exponent with its sign, or the letters of a special value; one of these that is neither a
digit nor a dash is always among them, so no double is written as a whole number is.
-/

namespace Reckoner

/-- A character that numbers are written with. -/
def IsFigure (c : Char) : Prop := c.isDigit = true ∨ c ∈ ['.', 'e', '+', '-', 'n', 'a', 'i', 'f']

instance (c : Char) : Decidable (IsFigure c) := inferInstanceAs (Decidable (_ ∨ _))

variable {c : Char}

/-- Whole numbers are written with digits and the dash. -/
theorem isDigit_or_eq_of_mem_toString {n : Int} (h : c ∈ (toString n).toList) :
    c.isDigit = true ∨ c = '-' := by
  have hnat {m : Nat} (hm : c ∈ m.repr.toList) : c.isDigit = true := by
    rw [Nat.repr_eq_ofList_toDigits, String.toList_ofList] at hm
    exact Nat.isDigit_of_mem_toDigits (by decide) (by decide) hm
  rw [Int.toString_eq_repr, Int.repr_eq_if] at h
  split at h
  · exact .inl (hnat h)
  · rw [String.toList_append, List.mem_append] at h
    rcases h with h | h
    · exact .inr (by simpa using h)
    · exact .inl (hnat h)

/-- A whole number is known by its text, which is read back. -/
theorem toString_int_inj {m n : Int} (h : toString m = toString n) : m = n := by
  have hstops : Data.Stops [] := fun c hc => absurd hc (by simp)
  have hm := Data.readNumber?_int m hstops
  rw [h, Data.readNumber?_int n hstops] at hm
  cases hm
  rfl

/-! ### Doubles -/

section Doubles

variable {ds : List Char} {x : Float}

theorem isDigit_of_mem_significant {d : Decimal} (h : c ∈ d.significant.1) : c.isDigit = true := by
  have hmem : c ∈ Nat.toDigits 10 d.digits := (List.rdropWhile_prefix _ _).mem h
  exact Nat.isDigit_of_mem_toDigits (by decide) (by decide) hmem

/-- In positional notation there is nothing but digits and a point. -/
theorem isDigit_or_eq_of_mem_positional (hds : ∀ d ∈ ds, d.isDigit = true) {lead : Int}
    (h : c ∈ positional ds lead) : c.isDigit = true ∨ c = '.' := by
  have hzero : '0'.isDigit = true := by decide
  unfold positional at h
  split at h
  · simp only [List.mem_cons, List.mem_append, List.mem_replicate] at h
    rcases h with rfl | rfl | ⟨-, rfl⟩ | h
    · exact .inl hzero
    · exact .inr rfl
    · exact .inl hzero
    · exact .inl (hds c h)
  · simp only [List.mem_cons, List.mem_append, List.mem_replicate] at h
    rcases h with (h | ⟨-, rfl⟩) | rfl | h
    · exact .inl (hds c (List.mem_of_mem_take h))
    · exact .inl hzero
    · exact .inr rfl
    · split at h
      · obtain rfl := List.mem_singleton.mp h
        exact .inl hzero
      · exact .inl (hds c (List.mem_of_mem_drop h))

/-- In scientific notation there is nothing but digits, a point, the mark and its sign. -/
theorem isFigure_of_mem_scientific (hds : ∀ d ∈ ds, d.isDigit = true) {width : Nat} {lead : Int}
    (h : c ∈ scientific width ds lead) : IsFigure c := by
  have hexponent (hc : c ∈ Nat.toDigits 10 lead.natAbs) : c.isDigit = true :=
    Nat.isDigit_of_mem_toDigits (by decide) (by decide) hc
  unfold scientific at h
  simp only [List.mem_cons, List.mem_append, List.mem_replicate] at h
  rcases h with h | rfl | rfl | ⟨-, rfl⟩ | h
  · split at h
    · split at h
      · obtain rfl := List.mem_singleton.mp h
        exact .inl (hds _ List.mem_cons_self)
      · simp only [List.mem_cons] at h
        rcases h with rfl | rfl | h
        · exact .inl (hds _ List.mem_cons_self)
        · decide
        · exact .inl (hds c (List.mem_cons_of_mem _ h))
    · cases h
  · decide
  · split <;> decide
  · decide
  · exact .inl (hexponent h)

/-- Doubles are written with the characters of numbers. -/
theorem isFigure_of_mem_floatText (h : c ∈ (floatText x).toList) : IsFigure c := by
  have hfixed {text : List Char} (htext : text.all fun d => decide (IsFigure d)) (hc : c ∈ text) :
      IsFigure c := of_decide_eq_true (List.all_eq_true.mp htext c hc)
  unfold floatText at h
  split at h
  · exact hfixed (by decide) h
  · simp only [String.toList_ofList, List.mem_append] at h
    rcases h with h | h
    · split at h
      · exact hfixed (by decide) h
      · cases h
    · split at h
      · exact hfixed (by decide) h
      · split at h
        · exact hfixed (by decide) h
        · unfold Layout.render at h
          dsimp only at h
          split at h
          · rcases isDigit_or_eq_of_mem_positional (fun _ => isDigit_of_mem_significant) h with
              hdigit | rfl
            · exact .inl hdigit
            · decide
          · exact isFigure_of_mem_scientific (fun _ => isDigit_of_mem_significant) h

/-- Either notation has a character of its own. -/
theorem point_or_mark_mem_render (l : Layout) (d : Decimal) :
    '.' ∈ l.render d ∨ 'e' ∈ l.render d := by
  unfold Layout.render
  dsimp only
  split
  · refine .inl ?_
    unfold positional
    split <;> simp
  · refine .inr ?_
    unfold scientific
    simp

/-- In the text of a double there is a character that no whole number has. -/
theorem exists_mem_floatText (x : Float) :
    ∃ c ∈ (floatText x).toList, c.isDigit = false ∧ c ≠ '-' := by
  unfold floatText
  split
  · exact ⟨'n', by decide, by decide⟩
  · obtain ⟨c, hc, hne⟩ : ∃ c ∈ if x.isInf then ['i', 'n', 'f'] else
        if x == 0.0 then ['0', '.', '0'] else floatLayout.render (shortest x.abs),
        c.isDigit = false ∧ c ≠ '-' := by
      split
      · exact ⟨'i', by decide, by decide⟩
      · split
        · exact ⟨'.', by decide, by decide⟩
        · rcases point_or_mark_mem_render floatLayout (shortest x.abs) with h | h
          · exact ⟨'.', h, by decide⟩
          · exact ⟨'e', h, by decide⟩
    exact ⟨c, by rw [String.toList_ofList]; exact List.mem_append_right _ hc, hne⟩

/-- No double is written as a whole number is. -/
theorem toString_int_ne_floatText (n : Int) (x : Float) : toString n ≠ floatText x := by
  intro h
  obtain ⟨c, hc, hdigit, hdash⟩ := exists_mem_floatText x
  rw [← h] at hc
  rcases isDigit_or_eq_of_mem_toString hc with hc | hc
  · rw [hdigit] at hc
    cases hc
  · exact hdash hc

end Doubles

/-! ### Values -/

namespace Value

/-- Values are written with the characters of numbers. -/
theorem isFigure_of_mem_text {v : Value} (h : c ∈ v.text.toList) : IsFigure c := by
  cases v with
  | integer n =>
    rcases isDigit_or_eq_of_mem_toString h with hdigit | rfl
    · exact .inl hdigit
    · decide
  | float x => exact isFigure_of_mem_floatText h

/-- Values with the same text are the same, if the text tells their doubles apart. -/
theorem text_inj {v w : Value} (h : v.text = w.text)
    (hdoubles : ∀ x y, v = float x → w = float y → floatText x = floatText y → x = y) : v = w := by
  cases v with
  | integer m =>
    cases w with
    | integer n =>
      have hval : m.val = n.val := toString_int_inj h
      obtain ⟨m, hm⟩ := m
      obtain rfl : m = n.val := hval
      rfl
    | float y => exact absurd h (toString_int_ne_floatText m.val y)
  | float x =>
    cases w with
    | integer n => exact absurd h.symm (toString_int_ne_floatText n.val x)
    | float y => rw [hdoubles x y rfl rfl h]

end Value

end Reckoner
