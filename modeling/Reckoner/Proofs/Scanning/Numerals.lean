import Reckoner.Number.Decimal

/-!
# Numerals and their texts

The numerals that can be cut off a text are the well-formed ones: their runs are digits, one of the
runs around the point is not empty, and an exponent has its mark, at most one sign and a digit. A
well-formed numeral is cut off again from its own text, whatever follows that does not continue it,
and no well-formed numeral at the front of a text is longer than the one that is cut off.
-/

namespace Reckoner

open Text

/-- A text does not go on with a digit. -/
def Pauses (cs : List Char) : Prop := ∀ c ∈ cs.head?, c.isDigit = false

theorem takeDigits_all (cs : List Char) : (takeDigits cs).1.all Char.isDigit = true :=
  List.all_takeWhile

/-- A run of digits is cut off up to where it ends. -/
theorem takeDigits_append_of_pauses {ds cs : List Char} (hds : ds.all Char.isDigit = true)
    (hcs : Pauses cs) : takeDigits (ds ++ cs) = (ds, cs) := by
  have hall : ∀ c ∈ ds, c.isDigit = true := List.all_eq_true.mp hds
  have hnone : cs.takeWhile Char.isDigit = [] ∧ cs.dropWhile Char.isDigit = cs := by
    cases cs with
    | nil => exact ⟨rfl, rfl⟩
    | cons c cs =>
      have hc : c.isDigit = false := hcs c rfl
      simp [hc]
  rw [takeDigits, List.takeWhile_append_of_pos hall, List.dropWhile_append_of_pos hall, hnone.1,
    hnone.2, List.append_nil]

/-- Digits before a text belong to the run that is cut off it. -/
theorem takeDigits_append_of_all {ds : List Char} (hds : ds.all Char.isDigit = true)
    (cs : List Char) :
    takeDigits (ds ++ cs) = (ds ++ (takeDigits cs).1, (takeDigits cs).2) := by
  have hall : ∀ c ∈ ds, c.isDigit = true := List.all_eq_true.mp hds
  rw [takeDigits, takeDigits, List.takeWhile_append_of_pos hall,
    List.dropWhile_append_of_pos hall]

/-- An exponent has its mark, at most one sign, and a digit. -/
structure Exponent.WellFormed (e : Exponent) : Prop where
  /-- The mark is the letter `e` in either case. -/
  mark : e.mark = 'e' ∨ e.mark = 'E'
  /-- A sign is one of two. -/
  sign : ∀ c ∈ e.sign, c = '+' ∨ c = '-'
  /-- What follows are digits. -/
  digits : e.digits.all Char.isDigit = true
  /-- There is a digit. -/
  nonempty : e.digits ≠ []

/-- A numeral has digits around its point, and its exponent is one. -/
structure Numeral.WellFormed (n : Numeral) : Prop where
  /-- What stands before the point are digits. -/
  whole : n.whole.all Char.isDigit = true
  /-- What stands after the point are digits. -/
  fraction : ∀ ds ∈ n.fraction, ds.all Char.isDigit = true
  /-- There is a digit on one side of the point. -/
  nonempty : n.whole ≠ [] ∨ ∃ ds ∈ n.fraction, ds ≠ []
  /-- The exponent is one. -/
  exponent : ∀ e ∈ n.exponent, e.WellFormed

/-- A sign that is cut off is a sign. -/
theorem takeSign_sign (cs : List Char) : ∀ c ∈ (takeSign cs).1, c = '+' ∨ c = '-' := by
  intro c hc
  unfold takeSign at hc
  split at hc
  · exact .inl (Option.some.inj hc).symm
  · exact .inr (Option.some.inj hc).symm
  · cases hc

/-- An exponent that is cut off is well-formed. -/
theorem Exponent.wellFormed_of_take {cs rest : List Char} {e : Exponent}
    (h : Exponent.take cs = some (e, rest)) : e.WellFormed := by
  cases cs with
  | nil => cases h
  | cons c cs =>
    simp only [Exponent.take] at h
    split at h
    · rename_i hc
      split at h
      · cases h
      · rename_i hd
        obtain ⟨rfl, -⟩ := Prod.mk.inj (Option.some.inj h)
        exact ⟨hc, takeSign_sign cs, takeDigits_all _, by simpa using hd⟩
    · cases h

/-- Digits and a point that are cut off are those of a numeral. -/
private theorem wellFormed_of_takeMantissa {cs w r : List Char} {f : Option (List Char)}
    (h : takeMantissa cs = some ((w, f), r)) : (⟨w, f, none⟩ : Numeral).WellFormed := by
  simp only [takeMantissa] at h
  split at h
  · rename_i r' _
    split at h
    · cases h
    · rename_i hne
      obtain ⟨hwf, -⟩ := Prod.mk.inj (Option.some.inj h)
      obtain ⟨rfl, rfl⟩ := Prod.mk.inj hwf
      refine ⟨takeDigits_all _, fun ds hds => ?_, ?_, fun e he => ?_⟩
      · obtain rfl := Option.some.inj hds
        exact takeDigits_all _
      · by_cases hw : (takeDigits cs).1 = []
        · exact .inr ⟨_, rfl, fun hf => hne (by simp [hw, hf])⟩
        · exact .inl hw
      · cases he
  · split at h
    · cases h
    · rename_i hne
      obtain ⟨hwf, -⟩ := Prod.mk.inj (Option.some.inj h)
      obtain ⟨rfl, rfl⟩ := Prod.mk.inj hwf
      refine ⟨takeDigits_all _, fun ds hds => ?_, .inl (by simpa using hne), fun e he => ?_⟩
      · cases hds
      · cases he

/-- A numeral that is cut off is well-formed. -/
theorem Numeral.wellFormed_of_take {cs rest : List Char} {n : Numeral}
    (h : Numeral.take cs = some (n, rest)) : n.WellFormed := by
  unfold Numeral.take at h
  split at h
  · cases h
  · rename_i w f r hm
    have hm := wellFormed_of_takeMantissa hm
    split at h
    · obtain ⟨rfl, -⟩ := Prod.mk.inj (Option.some.inj h)
      exact hm
    · rename_i e r' he
      obtain ⟨rfl, -⟩ := Prod.mk.inj (Option.some.inj h)
      refine ⟨hm.whole, hm.fraction, hm.nonempty, fun e' he' => ?_⟩
      obtain rfl := Option.some.inj he'
      exact Exponent.wellFormed_of_take he

/-- A sign is cut off what it stands before. -/
private theorem takeSign_append_eq {sign : Option Char} {cs : List Char}
    (hsign : ∀ c ∈ sign, c = '+' ∨ c = '-') (hcs : ∀ c ∈ cs.head?, c.isDigit = true) :
    takeSign (sign.toList ++ cs) = (sign, cs) := by
  cases sign with
  | some c =>
    rcases hsign c rfl with rfl | rfl <;> rfl
  | none =>
    cases cs with
    | nil => rfl
    | cons c cs =>
      have hc := hcs c rfl
      rw [Option.toList_none, List.nil_append]
      unfold takeSign
      split
      · rename_i h
        cases (List.cons.inj h).1
        cases hc
      · rename_i h
        cases (List.cons.inj h).1
        cases hc
      · rfl

/-- A well-formed exponent is cut off its own text. -/
theorem Exponent.take_text_append {e : Exponent} (he : e.WellFormed) {rest : List Char}
    (hrest : Pauses rest) : Exponent.take (e.text ++ rest) = some (e, rest) := by
  obtain ⟨d, ds, hd⟩ := List.exists_cons_of_ne_nil he.nonempty
  have hsign : takeSign (e.sign.toList ++ (e.digits ++ rest)) = (e.sign, e.digits ++ rest) := by
    refine takeSign_append_eq he.sign fun c hc => ?_
    obtain rfl : d = c := by simpa [hd] using hc
    exact List.all_eq_true.mp he.digits d (by simp [hd])
  have hdigits := takeDigits_append_of_pauses he.digits hrest
  rw [Exponent.text, List.cons_append, List.append_assoc, Exponent.take, if_pos he.mark]
  simp only [hsign, hdigits]
  rw [if_neg (by simpa using he.nonempty)]

/-- The digits and the point of a well-formed numeral are cut off, unless what follows continues
them. -/
private theorem takeMantissa_append {n : Numeral} (hn : n.WellFormed) {rest : List Char}
    (hrest : Pauses rest) (hpoint : n.fraction = none → rest.head? ≠ some '.') :
    takeMantissa (n.mantissa ++ rest) = some ((n.whole, n.fraction), rest) := by
  unfold Numeral.mantissa takeMantissa
  cases hf : n.fraction with
  | none =>
    have hne : n.whole ≠ [] := hn.nonempty.resolve_right fun ⟨ds, hds, _⟩ => by
      rw [hf] at hds
      cases hds
    simp only [Option.elim, List.append_nil, takeDigits_append_of_pauses hn.whole hrest]
    split
    · exact absurd rfl (hpoint hf)
    · rw [if_neg (by simpa using hne)]
  | some ds =>
    have hds := hn.fraction ds hf
    have hne : ¬((n.whole.isEmpty && ds.isEmpty) = true) := by
      rcases hn.nonempty with h | ⟨ds', hds', h⟩
      · simp [h]
      · obtain rfl := Option.some.inj (hf.symm.trans hds')
        simp [h]
    have hdot : Pauses ('.' :: (ds ++ rest)) := by
      intro c hc
      obtain rfl := Option.some.inj hc
      rfl
    simp only [Option.elim, List.append_assoc, List.cons_append,
      takeDigits_append_of_pauses hn.whole hdot, takeDigits_append_of_pauses hds hrest]
    rw [if_neg hne]

/-- A well-formed numeral is cut off its own text, unless what follows continues it. -/
theorem Numeral.take_text_append {n : Numeral} (hn : n.WellFormed) {r : List Char}
    (hr : Pauses r) (hpoint : n.isWhole = true → r.head? ≠ some '.')
    (hexponent : n.exponent = none → Exponent.take r = none) :
    Numeral.take (n.text ++ r) = some (n, r) := by
  unfold Numeral.text Numeral.take
  cases he : n.exponent with
  | none =>
    have hwhole : n.fraction = none → n.isWhole = true := fun hf => by simp [isWhole, hf, he]
    rw [Option.elim, List.append_nil, takeMantissa_append hn hr fun hf => hpoint (hwhole hf)]
    simp only [hexponent he]
    rw [← he]
  | some e =>
    have hwf := hn.exponent e he
    -- The mark of the exponent is neither a digit nor a point.
    have hmark : ∀ c ∈ (e.text ++ r).head?, c.isDigit = false ∧ c ≠ '.' := by
      intro c hc
      obtain rfl : e.mark = c := by simpa [Exponent.text] using hc
      rcases hwf.mark with h | h <;> rw [h] <;> decide
    rw [Option.elim, List.append_assoc, takeMantissa_append hn (fun c hc => (hmark c hc).1)
      fun _ hc => (hmark _ hc).2 rfl]
    simp only [Exponent.take_text_append hwf hr]
    rw [← he]

/-- A well-formed numeral is read back from its own text. -/
theorem Numeral.take_text {n : Numeral} (hn : n.WellFormed) :
    Numeral.take n.text = some (n, []) := by
  have h := take_text_append hn (r := []) (fun _ hc => nomatch hc) (fun _ hc => nomatch hc)
    fun _ => rfl
  rwa [List.append_nil] at h

/-- A numeral has a text. -/
theorem Numeral.WellFormed.text_ne_nil {n : Numeral} (hn : n.WellFormed) : n.text ≠ [] := by
  intro h
  have htake := Numeral.take_text hn
  rw [h] at htake
  cases htake

/-- The exponent that is cut off is the longest one. -/
theorem Exponent.exists_take_of_text_append {e : Exponent} (he : e.WellFormed) (rest : List Char) :
    ∃ e' r, Exponent.take (e.text ++ rest) = some (e', r) ∧ e.text.length ≤ e'.text.length := by
  obtain ⟨d, ds, hd⟩ := List.exists_cons_of_ne_nil he.nonempty
  have hsign : takeSign (e.sign.toList ++ (e.digits ++ rest)) = (e.sign, e.digits ++ rest) := by
    refine takeSign_append_eq he.sign fun c hc => ?_
    obtain rfl : d = c := by simpa [hd] using hc
    exact List.all_eq_true.mp he.digits d (by simp [hd])
  refine ⟨⟨e.mark, e.sign, e.digits ++ (takeDigits rest).1⟩, (takeDigits rest).2, ?_, ?_⟩
  · rw [Exponent.text, List.cons_append, List.append_assoc, Exponent.take, if_pos he.mark]
    simp only [hsign, takeDigits_append_of_all he.digits]
    rw [if_neg (by simp [hd])]
  · simp [Exponent.text]

/-- An exponent pauses a run of digits and is no point. -/
theorem Exponent.WellFormed.pauses {e : Exponent} (he : e.WellFormed) (rest : List Char) :
    Pauses (e.text ++ rest) ∧ ∀ r, e.text ++ rest ≠ '.' :: r := by
  have hmark : ∀ c ∈ (e.text ++ rest).head?, c.isDigit = false ∧ c ≠ '.' := by
    intro c hc
    obtain rfl : e.mark = c := by simpa [Exponent.text] using hc
    rcases he.mark with h | h <;> rw [h] <;> decide
  refine ⟨fun c hc => (hmark c hc).1, fun r hr => ?_⟩
  exact (hmark '.' (by rw [hr]; rfl)).2 rfl

/-- The digits and the point that are cut off are the most that there are. -/
private theorem exists_takeMantissa {n : Numeral} (hn : n.WellFormed) (rest : List Char) :
    ∃ w f r, takeMantissa (n.mantissa ++ rest) = some ((w, f), r) ∧
      n.mantissa.length ≤ (w ++ f.elim [] ('.' :: ·)).length := by
  unfold Numeral.mantissa takeMantissa
  cases hf : n.fraction with
  | none =>
    have hne : n.whole ≠ [] := hn.nonempty.resolve_right fun ⟨ds, hds, _⟩ => by
      rw [hf] at hds
      cases hds
    simp only [Option.elim, List.append_nil, takeDigits_append_of_all hn.whole]
    split
    · refine ⟨_, _, _, if_neg (by simp [hne]), by simp⟩
    · refine ⟨_, _, _, if_neg (by simp [hne]), by simp⟩
  | some ds =>
    have hds := hn.fraction ds hf
    have hne : n.whole ≠ [] ∨ ds ≠ [] := hn.nonempty.imp_right fun ⟨ds', hds', h⟩ => by
      obtain rfl := Option.some.inj (hf.symm.trans hds')
      exact h
    have hdot : Pauses ('.' :: (ds ++ rest)) := by
      intro c hc
      obtain rfl := Option.some.inj hc
      rfl
    simp only [Option.elim, List.append_assoc, List.cons_append,
      takeDigits_append_of_pauses hn.whole hdot, takeDigits_append_of_all hds]
    refine ⟨_, _, _, if_neg ?_, by simp⟩
    rcases hne with h | h <;> simp [h]


/-- The numeral that is cut off is the longest one. -/
theorem Numeral.exists_take_of_text_append {n : Numeral} (hn : n.WellFormed) (rest : List Char) :
    ∃ n' r, Numeral.take (n.text ++ rest) = some (n', r) ∧ n.text.length ≤ n'.text.length := by
  unfold Numeral.text Numeral.take
  cases he : n.exponent with
  | none =>
    obtain ⟨w, f, r, hm, hle⟩ := exists_takeMantissa hn rest
    rw [Option.elim, List.append_nil, hm]
    simp only
    split
    · exact ⟨_, _, rfl, by simpa [mantissa] using hle⟩
    · refine ⟨_, _, rfl, Nat.le_trans hle ?_⟩
      simp [mantissa]
  | some e =>
    have hwf := hn.exponent e he
    obtain ⟨hpause, hpoint⟩ := hwf.pauses rest
    obtain ⟨e', r, htake, hle⟩ := Exponent.exists_take_of_text_append hwf rest
    rw [Option.elim, List.append_assoc, takeMantissa_append hn hpause fun _ hc =>
      (List.head?_eq_some_iff.mp hc).elim hpoint]
    simp only [htake]
    refine ⟨_, _, rfl, ?_⟩
    simpa [mantissa] using hle

end Reckoner
