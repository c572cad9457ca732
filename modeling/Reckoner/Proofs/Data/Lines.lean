import Reckoner.Proofs.Data.Doubles
import Reckoner.Proofs.Data.Texts

/-!
# Data lines are read back

A data line is one line of printable ASCII characters, and the strict reader gives back its fields:
their names, their order and their data. Of doubles this is said as far as they are finite and read
back. A line of a calculation log is a data line that was written, read, relieved of the place in
the program and written again.
-/

namespace Reckoner.Data

open Text

/-- Read a data line strictly, without words for doubles that are not finite. -/
def read? (line : String) : Option (List (String × Scalar)) := readLine? false line

/-- Plain data that is read back: a double has to be finite and to read back. -/
def Readable : Scalar → Prop
  | .float x => x.isFinite = true ∧ ReadsBack x
  | _ => True

variable {floatWords : Bool}

/-! ### Plain data -/

/-- Only a digit, a point or a dash can begin a number. -/
private theorem readNumber?_cons {c : Char} (hdigit : c.isDigit = false) (hpoint : c ≠ '.')
    (hdash : c ≠ '-') (cs : List Char) : readNumber? (c :: cs) = none := by
  have htake : Numeral.take (c :: cs) = none := by
    simp [Numeral.take, takeMantissa, takeDigits, hdigit, hpoint]
  simp [readNumber?, hdash, htake]

/-- What is read as a number is read as plain data. -/
theorem readScalar?_of_readNumber? {cs rest : List Char} {s : Scalar}
    (h : readNumber? cs = some (s, rest)) : readScalar? floatWords cs = some (s, rest) := by
  have hnot : ∀ {c : Char} {r : List Char}, c.isDigit = false → c ≠ '.' → c ≠ '-' →
      readNumber? (c :: r) ≠ some (s, rest) := by
    intro c r hdigit hpoint hdash hsome
    rw [readNumber?_cons hdigit hpoint hdash] at hsome
    cases hsome
  unfold readScalar?
  split
  · exact absurd h (hnot (by decide) (by decide) (by decide))
  · exact absurd h (hnot (by decide) (by decide) (by decide))
  · exact absurd h (hnot (by decide) (by decide) (by decide))
  · exact absurd h (hnot (by decide) (by decide) (by decide))
  · rw [h, Option.some_or]

/-- Plain data is read back. -/
theorem readScalar?_data {s : Scalar} (hs : Readable s) {rest : List Char} (hrest : Stops rest) :
    readScalar? floatWords (s.data.toList ++ rest) = some (s, rest) := by
  cases s with
  | null => rfl
  | bool b => cases b <;> rfl
  | int n => exact readScalar?_of_readNumber? (readNumber?_int n hrest)
  | float x => exact readScalar?_of_readNumber? (readNumber?_float hs.1 hs.2 hrest)
  | text t =>
    have htext : (Scalar.text t).data.toList ++ rest =
        '\x22' :: (t.toList.flatMap escapedChar ++ '\x22' :: rest) := by
      simp [Scalar.data, escaped]
    rw [htext, readScalar?, readText?_escaped, Option.map_some, String.ofList_toList]

/-- A double that is not finite cannot be read back: the words for such doubles are not data. -/
theorem readScalar?_floatData {x : Float} (hx : x.isFinite = false) (rest : List Char) :
    readScalar? false ((floatData x).toList ++ rest) = none := by
  rcases isNaN_or_isInf hx with hnan | ⟨hnan, hinf⟩
  · have hdata : floatData x = "NaN" := by rw [floatData, if_pos hnan]
    rw [hdata]
    exact readNumber?_cons (c := 'N') (by decide) (by decide) (by decide) ('a' :: 'N' :: rest)
  · cases hsign : signBit x with
    | true =>
      have hdata : floatData x = "-Infinity" := by simp only [floatData, hnan, hinf, hsign]; rfl
      rw [hdata]
      rfl
    | false =>
      have hdata : floatData x = "Infinity" := by simp only [floatData, hnan, hinf, hsign]; rfl
      rw [hdata]
      exact readNumber?_cons (c := 'I') (by decide) (by decide) (by decide)
        ('n' :: 'f' :: 'i' :: 'n' :: 'i' :: 't' :: 'y' :: rest)

/-- A numeral behind its sign begins with a character that is no blank. -/
private theorem exists_text_cons {n : Numeral} (hn : n.WellFormed) (isNegative : Bool) :
    ∃ c r, signText isNegative ++ n.text = c :: r ∧ isSpacing c = false := by
  cases isNegative with
  | true => exact ⟨'-', n.text, rfl, rfl⟩
  | false =>
    obtain ⟨c, r, htext, hc⟩ := hn.exists_head
    refine ⟨c, r, htext, ?_⟩
    by_contra hspacing
    simp only [isSpacing, Bool.not_eq_false, Bool.or_eq_true, beq_iff_eq] at hspacing
    rcases hspacing with ((rfl | rfl) | rfl) | rfl <;> revert hc <;> decide

/-- Plain data begins with a character that is no blank. -/
theorem exists_data_cons {s : Scalar} (hs : Readable s) :
    ∃ c r, s.data.toList = c :: r ∧ isSpacing c = false := by
  cases s with
  | null => exact ⟨'n', _, rfl, rfl⟩
  | bool b => cases b <;> exact ⟨_, _, rfl, rfl⟩
  | int n =>
    rw [Scalar.data, toList_toString_int]
    exact exists_text_cons (wellFormed_wholeNumeral _) _
  | float x =>
    obtain ⟨n, hn, htext⟩ := exists_floatText hs.1 hs.2
    rw [Scalar.data, floatData_of_isFinite hs.1, htext]
    exact exists_text_cons hn.wellFormed _
  | text t => exact ⟨'\x22', _, String.toList_ofList, rfl⟩

/-! ### Fields -/

/-- Nothing is dropped in front of a character that is no blank. -/
theorem dropBlanks_cons {c : Char} (hc : isSpacing c = false) (r : List Char) :
    dropBlanks (c :: r) = c :: r :=
  List.dropWhile_cons_of_neg (by simp [hc])

/-- Blanks in front are dropped, up to a character that is none. -/
theorem dropBlanks_append (blanks : List Char) (h : ∀ b ∈ blanks, isSpacing b = true)
    {c : Char} (hc : isSpacing c = false) (r : List Char) :
    dropBlanks (blanks ++ c :: r) = c :: r := by
  rw [dropBlanks, List.dropWhile_append_of_pos h]
  exact dropBlanks_cons hc r

/-- A field as it stands on a data line. -/
def fieldText (f : String × Scalar) : List Char :=
  (escaped f.1).toList ++ ':' :: ' ' :: f.2.data.toList

/-- A field is read back up to a comma or the closing brace, whatever blanks are in front of it. -/
theorem readField?_fieldText (floatWords : Bool) {f : String × Scalar} (hf : Readable f.2)
    (blanks : List Char) (hblanks : ∀ b ∈ blanks, isSpacing b = true) {c : Char}
    (hc : c = ',' ∨ c = '\x7d') (rest : List Char) :
    readField? floatWords (blanks ++ fieldText f ++ c :: rest) = some (f, c :: rest) := by
  have hline : blanks ++ fieldText f ++ c :: rest = blanks ++ '\x22' ::
      (f.1.toList.flatMap escapedChar ++ '\x22' ::
        (':' :: ' ' :: (f.2.data.toList ++ c :: rest))) := by
    simp [fieldText, escaped]
  have hspacing : isSpacing c = false := by rcases hc with rfl | rfl <;> rfl
  have hstops : Stops (c :: rest) := by
    intro d hd
    cases hd
    rcases hc with rfl | rfl <;> decide
  obtain ⟨d, r, hdata, hd⟩ := exists_data_cons hf
  have hvalue : dropBlanks (' ' :: (f.2.data.toList ++ c :: rest)) =
      f.2.data.toList ++ c :: rest := by
    rw [hdata]
    exact dropBlanks_append [' '] (by simp [isSpacing]) hd _
  rw [hline, readField?, dropBlanks_append blanks hblanks rfl]
  simp only [readText?_escaped]
  rw [dropBlanks_cons rfl]
  simp only [hvalue, readScalar?_data hf hstops, Option.map_some, String.ofList_toList]
  rw [dropBlanks_cons hspacing]

/-- Fields are read back within as many steps as there are fields. -/
theorem readFieldsWithin_fieldTexts (floatWords : Bool) {f : String × Scalar}
    {fs : List (String × Scalar)} (h : ∀ g ∈ f :: fs, Readable g.2) (blanks : List Char)
    (hblanks : ∀ b ∈ blanks, isSpacing b = true) {n : Nat} (hn : fs.length < n) :
    readFieldsWithin floatWords n
      (blanks ++ ([',', ' '].intercalate ((f :: fs).map fieldText) ++ ['\x7d'])) =
        some (f :: fs) := by
  obtain ⟨n, rfl⟩ := Nat.exists_eq_succ_of_ne_zero (Nat.ne_zero_of_lt hn)
  induction fs generalizing f blanks n with
  | nil =>
    have hfield := readField?_fieldText floatWords (h f (by simp)) blanks hblanks
      (.inr rfl) []
    rw [List.map_singleton, List.intercalate_singleton, ← List.append_assoc, readFieldsWithin,
      hfield]
    rfl
  | cons g gs ih =>
    have hfield := readField?_fieldText floatWords (h f (by simp)) blanks hblanks
      (.inl rfl) (' ' :: ([',', ' '].intercalate ((g :: gs).map fieldText) ++ ['\x7d']))
    obtain ⟨n, rfl⟩ := Nat.exists_eq_succ_of_ne_zero
      (Nat.ne_zero_of_lt (Nat.lt_of_succ_lt_succ hn))
    have hrest := ih (fun x hx => h x (List.mem_cons_of_mem f hx)) [' '] (by simp [isSpacing])
      n (Nat.lt_of_succ_lt_succ hn)
    have hline : blanks ++ ([',', ' '].intercalate ((f :: g :: gs).map fieldText) ++ ['\x7d']) =
        blanks ++ fieldText f ++ ',' :: ' ' ::
          ([',', ' '].intercalate ((g :: gs).map fieldText) ++ ['\x7d']) := by
      simp [List.intercalate_cons_cons]
    rw [hline, readFieldsWithin, hfield]
    exact congrArg (Option.map (f :: ·)) hrest

/-! ### Lines -/

/-- A data line is its fields with commas between them, in braces. -/
private theorem toList_dataLine (fields : List (String × Scalar)) : (dataLine fields).toList =
    '\x7b' :: ([',', ' '].intercalate (fields.map fieldText) ++ ['\x7d']) := by
  have hfield : ∀ f : String × Scalar, (escaped f.1 ++ ": " ++ f.2.data).toList = fieldText f := by
    intro f
    simp [fieldText]
  simp only [dataLine, String.toList_append, String.toList_intercalate, List.map_map,
    Function.comp_def, hfield]
  rfl

/-- Fields begin with the quote of the first name. -/
private theorem exists_fieldTexts_cons (f : String × Scalar) (fs : List (String × Scalar)) :
    ∃ r, [',', ' '].intercalate ((f :: fs).map fieldText) ++ ['\x7d'] = '\x22' :: r := by
  obtain ⟨r, hr⟩ : ∃ r, fieldText f = '\x22' :: r := ⟨_, by simp [fieldText, escaped]; rfl⟩
  cases fs with
  | nil => exact ⟨r ++ ['\x7d'], by simp [hr]⟩
  | cons g gs => exact ⟨_, by simp [List.intercalate_cons_cons, hr]; rfl⟩

/-- A field takes some space. -/
private theorem length_fieldText (f : String × Scalar) : 0 < (fieldText f).length := by
  simp [fieldText]

/-- A line has at least as many characters as fields. -/
private theorem length_le_length_fieldTexts (fs : List (String × Scalar)) :
    fs.length ≤ ([',', ' '].intercalate (fs.map fieldText)).length := by
  induction fs with
  | nil => exact Nat.le_refl _
  | cons f fs ih =>
    have hf := length_fieldText f
    cases fs with
    | nil => simpa using Nat.succ_le_of_lt hf
    | cons g gs =>
      simp only [List.map_cons, List.intercalate_cons_cons, List.length_append,
        List.length_cons] at ih ⊢
      omega

/-- A data line is read back. -/
theorem readLine?_dataLine {fields : List (String × Scalar)} (h : ∀ f ∈ fields, Readable f.2) :
    readLine? floatWords (dataLine fields) = some fields := by
  rw [readLine?, toList_dataLine, dropBlanks_cons rfl]
  cases fields with
  | nil => rfl
  | cons f fs =>
    have hlength := length_le_length_fieldTexts (f :: fs)
    have hread := readFieldsWithin_fieldTexts floatWords h [] nofun
      (n := ([',', ' '].intercalate ((f :: fs).map fieldText) ++ ['\x7d']).length)
      (by rw [List.length_append]; exact Nat.lt_add_right _ hlength)
    obtain ⟨r, hr⟩ := exists_fieldTexts_cons f fs
    rw [List.nil_append, hr] at hread
    rw [hr]
    simp only [dropBlanks_cons (c := '\x22') rfl]
    exact hread

/-- A number is written with printable characters. -/
private theorem isPlain_of_mem_text {n : Numeral} (hn : n.WellFormed) (isNegative : Bool) {c : Char}
    (hc : c ∈ signText isNegative ++ n.text) : IsPlain c := by
  have hmark : ∀ c ∈ ['.', 'e', 'E', '+', '-'], IsPlain c := by simp [IsPlain]
  rcases List.mem_append.mp hc with hc | hc
  · cases isNegative with
    | false => simp [signText] at hc
    | true => exact hmark c (by simp_all [signText])
  · rcases hn.isNumeralChar hc with h | h
    · have hrange := isDigit_iff.mp h
      constructor <;> omega
    · exact hmark c h

/-- Plain data is written with printable characters. -/
theorem isPlain_of_mem_data {s : Scalar} (hs : Readable s) {c : Char} (hc : c ∈ s.data.toList) :
    IsPlain c := by
  have hword : ∀ b ∈ ["null", "true", "false"], ∀ c ∈ b.toList, IsPlain c := by simp [IsPlain]
  cases s with
  | null => exact hword "null" (by simp) c hc
  | bool b => cases b with
    | true => exact hword "true" (by simp) c hc
    | false => exact hword "false" (by simp) c hc
  | int n =>
    rw [Scalar.data, toList_toString_int] at hc
    exact isPlain_of_mem_text (wellFormed_wholeNumeral _) _ hc
  | float x =>
    obtain ⟨n, hn, htext⟩ := exists_floatText hs.1 hs.2
    rw [Scalar.data, floatData_of_isFinite hs.1, htext] at hc
    exact isPlain_of_mem_text hn.wellFormed _ hc
  | text t => exact isPlain_of_mem_escaped hc

/-- A field is written with printable characters. -/
private theorem isPlain_of_mem_fieldText {f : String × Scalar} (hf : Readable f.2) {c : Char}
    (hc : c ∈ fieldText f) : IsPlain c := by
  simp only [fieldText, List.mem_append, List.mem_cons] at hc
  rcases hc with hc | rfl | rfl | hc
  · exact isPlain_of_mem_escaped hc
  · decide
  · decide
  · exact isPlain_of_mem_data hf hc

/-- A data line is written with printable ASCII characters. -/
theorem isPlain_of_mem_dataLine {fields : List (String × Scalar)} (h : ∀ f ∈ fields, Readable f.2)
    {c : Char} (hc : c ∈ (dataLine fields).toList) : IsPlain c := by
  have hfields : ∀ c ∈ [',', ' '].intercalate (fields.map fieldText), IsPlain c := by
    clear hc
    induction fields with
    | nil => simp
    | cons f fs ih =>
      have hf : ∀ c ∈ fieldText f, IsPlain c := fun c =>
        isPlain_of_mem_fieldText (h f List.mem_cons_self)
      have hcomma : ∀ c ∈ [',', ' '], IsPlain c := by simp [IsPlain]
      have hfs := ih fun g hg => h g (List.mem_cons_of_mem f hg)
      cases fs with
      | nil => simpa using hf
      | cons g gs =>
        intro c hc
        rw [List.map_cons, List.map_cons, List.intercalate_cons_cons, ← List.map_cons] at hc
        rcases List.mem_append.mp hc with hc | hc
        · rcases List.mem_append.mp hc with hc | hc
          · exact hf c hc
          · exact hcomma c hc
        · exact hfs c hc
  rw [toList_dataLine, List.mem_cons, List.mem_append, List.mem_singleton] at hc
  rcases hc with rfl | hc | rfl
  · decide
  · exact hfields c hc
  · decide

/-- A line of a calculation log has the fields of its record but for the place in the program: what
was written to be read back is read back. -/
theorem render_history {time : Moment} {r : Record} {message : String}
    (hm : r.message = .ok message) (h : ∀ f ∈ r.fields time message, Readable f.2) :
    LineFormat.history.render time r =
      .ok (dataLine ((r.fields time message).filter fun f => !placeFields.contains f.1)) := by
  simp only [LineFormat.render, hm, Except.map, withoutPlace, readLine?_dataLine h,
    Option.getD_some]

end Reckoner.Data
