import Reckoner.Diagnostic
import Mathlib.Algebra.GroupWithZero.Nat
import Mathlib.Order.Monotone.Basic

/-!
# Lines and columns of a source

The rows of a source are what stands between its line feeds. A place in the rows is a line with a
column on it or right behind it, and it has an offset: all rows before it with their line feeds, and
the columns before it. Locating an offset finds the one place that has it. That is read off a cut of
the source into the row that an offset lies on and what is before and behind this row.
-/

namespace Reckoner

open Text

/-- The rows of a source, without the line feeds between them. -/
def rows (source : List Char) : List (List Char) := source.splitOn '\n'

/-- The offset at which a row starts, if rows are counted from zero. -/
def rowStart (source : List Char) (i : Nat) : Nat :=
  (((rows source).take i).map fun row => row.length + 1).sum

namespace Location

/-- The offset of a place: the rows before it with their line feeds, and the columns before it. -/
def offset (source : List Char) (l : Location) : Nat :=
  rowStart source (l.line - 1) + (l.column - 1)

/-- A place in the rows of a source, with the text of its row but carriage returns at the end. -/
structure IsIn (source : List Char) (l : Location) : Prop where
  /-- The line is one of the rows. -/
  line : 1 ≤ l.line ∧ l.line ≤ (rows source).length
  /-- The column is on the row or right behind it. -/
  column : ∃ row, (rows source)[l.line - 1]? = some row ∧ 1 ≤ l.column ∧
    l.column ≤ row.length + 1 ∧ l.text = trimEnd (· == '\r') row

/-- A place is before another one in the order of reading. -/
def Before (l l' : Location) : Prop := l.line < l'.line ∨ l.line = l'.line ∧ l.column < l'.column

end Location

section Rows

variable {source before row after : List Char}

theorem rows_append (before after : List Char) :
    rows (before ++ '\n' :: after) = rows before ++ rows after := by
  simp only [rows, List.splitOn_eq_splitOnP]
  exact List.splitOnP_append_cons before after (beq_self_eq_true '\n')

/-- A text without line feeds is one row. -/
theorem rows_of_not_mem (h : '\n' ∉ row) : rows row = [row] := by
  rw [rows, List.splitOn_eq_splitOnP]
  refine List.splitOnP_eq_singleton fun c hc => ?_
  simp only [beq_eq_false_iff_ne]
  rintro rfl
  exact h hc

theorem rows_cons (c : Char) (source : List Char) :
    rows (c :: source) = if c = '\n' then [] :: rows source
      else (rows source).modifyHead (c :: ·) := by
  simp only [rows, List.splitOn_eq_splitOnP, List.splitOnP_cons_eq_if_modifyHead, beq_iff_eq]

theorem rows_ne_nil (source : List Char) : rows source ≠ [] := by
  cases source with
  | nil => simp [rows]
  | cons c source =>
    rw [rows_cons]
    split
    · simp
    · simpa using rows_ne_nil source

/-- There is one more row than there are line feeds. -/
theorem length_rows (source : List Char) : (rows source).length = source.count '\n' + 1 := by
  induction source with
  | nil => rfl
  | cons c source ih =>
    rw [rows_cons]
    split <;> rename_i hc
    · simp [hc, ih]
    · simp [hc, ih]

/-- The rows with a line feed for each of them are the source and one more line feed. -/
theorem sum_rows (source : List Char) :
    ((rows source).map fun row => row.length + 1).sum = source.length + 1 := by
  induction source with
  | nil => rfl
  | cons c source ih =>
    rw [rows_cons]
    split
    · simp only [List.map_cons, List.sum_cons, ih, List.length_nil, List.length_cons]
      omega
    · obtain ⟨row, rest, hrows⟩ := List.exists_cons_of_ne_nil (rows_ne_nil source)
      rw [hrows] at ih ⊢
      simp only [List.modifyHead_cons, List.map_cons, List.sum_cons, List.length_cons] at ih ⊢
      omega

/-- The next row starts behind the line feed of a row. -/
theorem rowStart_succ {i : Nat} (h : (rows source)[i]? = some row) :
    rowStart source (i + 1) = rowStart source i + (row.length + 1) := by
  rw [rowStart, List.take_add_one, h]
  simp [rowStart]

theorem rowStart_mono (source : List Char) {i j : Nat} (h : i ≤ j) :
    rowStart source i ≤ rowStart source j := by
  refine monotone_nat_of_le_succ (f := rowStart source) (fun i => ?_) h
  cases hrow : (rows source)[i]? with
  | none =>
    have hi := List.getElem?_eq_none_iff.mp hrow
    rw [rowStart, rowStart, List.take_of_length_le hi, List.take_of_length_le (by omega)]
  | some row =>
    rw [rowStart_succ hrow]
    omega

/-- Every row ends within the source. -/
theorem rowStart_add_length_le {i : Nat} (h : (rows source)[i]? = some row) :
    rowStart source i + row.length ≤ source.length := by
  have hmono := rowStart_mono source (show i + 1 ≤ (rows source).length from
    (List.getElem?_eq_some_iff.mp h).1)
  rw [rowStart_succ h] at hmono
  have htotal : rowStart source (rows source).length = source.length + 1 := by
    rw [rowStart, List.take_length, sum_rows]
  omega

end Rows

/-! ### Places -/

namespace Location

variable {source : List Char} {l l' : Location}

/-- The offset of a place lies in the source or at its end. -/
theorem IsIn.offset_le (h : l.IsIn source) : l.offset source ≤ source.length := by
  obtain ⟨row, hrow, -, hle, -⟩ := h.column
  have hend := rowStart_add_length_le hrow
  rw [offset]
  omega

/-- A place on an earlier line has a lesser offset. -/
theorem IsIn.offset_lt (h : l.IsIn source) (hlt : l.line < l'.line) :
    l.offset source < l'.offset source := by
  obtain ⟨row, hrow, -, hle, -⟩ := h.column
  have hline := h.line
  have hmono := rowStart_mono source (show l.line - 1 + 1 ≤ l'.line - 1 by omega)
  rw [rowStart_succ hrow] at hmono
  rw [offset, offset]
  omega

/-- The offsets of places are in the order of reading. -/
theorem IsIn.before (h : l'.IsIn source) (hlt : l.offset source < l'.offset source) :
    l.Before l' := by
  rcases Nat.lt_trichotomy l.line l'.line with hline | hline | hline
  · exact .inl hline
  · refine .inr ⟨hline, ?_⟩
    rw [offset, offset, hline] at hlt
    omega
  · have hgt := h.offset_lt hline
    omega

/-- No two places have the same offset. -/
theorem IsIn.eq_of_offset_eq (h : l.IsIn source) (h' : l'.IsIn source)
    (heq : l.offset source = l'.offset source) : l = l' := by
  obtain ⟨row, hrow, hpos, -, htext⟩ := h.column
  obtain ⟨row', hrow', hpos', -, htext'⟩ := h'.column
  have hline : l.line = l'.line := by
    rcases Nat.lt_trichotomy l.line l'.line with hline | hline | hline
    · have hlt := h.offset_lt hline
      omega
    · exact hline
    · have hlt := h'.offset_lt hline
      omega
  have hcolumn : l.column = l'.column := by
    rw [offset, offset, hline] at heq
    omega
  rw [hline] at hrow
  obtain rfl := Option.some.inj (hrow.symm.trans hrow')
  cases l
  cases l'
  simp_all

end Location

/-! ### The row of an offset -/

/-- A source is cut into a row and what is before and behind it. -/
structure CutsRow (source before row after : List Char) : Prop where
  /-- The parts make up the source. -/
  eq : source = before ++ (row ++ after)
  /-- The row is free of line feeds. -/
  free : '\n' ∉ row
  /-- It stands at the start or behind a line feed. -/
  start : before = [] ∨ ∃ cs, before = cs ++ ['\n']
  /-- It reaches up to the end or to a line feed. -/
  stop : after = [] ∨ ∃ cs, after = '\n' :: cs

section Cuts

variable {source before row after cs rest : List Char} {c : Char} {o line column : Nat}

/-- A line feed in front of a source makes an empty row of its own. -/
theorem CutsRow.newline (h : CutsRow source before row after) :
    CutsRow ('\n' :: source) ('\n' :: before) row after := by
  refine ⟨congrArg ('\n' :: ·) h.eq, h.free, .inr ?_, h.stop⟩
  rcases h.start with rfl | ⟨cs, rfl⟩
  · exact ⟨[], rfl⟩
  · exact ⟨'\n' :: cs, rfl⟩

/-- Any other character in front of a source belongs to the first row. -/
theorem CutsRow.cons (h : CutsRow source before row after) (hc : c ≠ '\n') :
    before = [] ∧ CutsRow (c :: source) [] (c :: row) after ∨
      0 < before.length ∧ CutsRow (c :: source) (c :: before) row after := by
  obtain ⟨heq, hfree, hstart, hstop⟩ := h
  rcases hstart with rfl | ⟨cs, rfl⟩
  · refine .inl ⟨rfl, congrArg (c :: ·) heq, ?_, .inl rfl, hstop⟩
    simpa [hfree] using hc.symm
  · exact .inr ⟨by simp, congrArg (c :: ·) heq, hfree, .inr ⟨c :: cs, rfl⟩, hstop⟩

/-- Every offset lies on a row or right behind it. -/
theorem exists_cutsRow (source : List Char) (h : o ≤ source.length) :
    ∃ before row after, CutsRow source before row after ∧ before.length ≤ o ∧
      o ≤ before.length + row.length := by
  induction source generalizing o with
  | nil =>
    obtain rfl : o = 0 := by simpa using h
    exact ⟨[], [], [], ⟨rfl, by simp, .inl rfl, .inl rfl⟩, Nat.le_refl _, Nat.le_refl _⟩
  | cons c source ih =>
    rw [List.length_cons] at h
    obtain ⟨before, row, after, hcut, hle, hge⟩ := ih (o := o - 1) (by omega)
    by_cases hc : c = '\n'
    · subst hc
      rcases Nat.eq_zero_or_pos o with rfl | hpos
      · exact ⟨[], [], '\n' :: source, ⟨rfl, by simp, .inl rfl, .inr ⟨_, rfl⟩⟩, Nat.le_refl _,
          Nat.le_refl _⟩
      · refine ⟨_, row, after, hcut.newline, ?_, ?_⟩ <;> simp only [List.length_cons] <;> omega
    · rcases hcut.cons hc with ⟨rfl, hcut'⟩ | ⟨hpos, hcut'⟩
      · refine ⟨[], c :: row, after, hcut', Nat.zero_le _, ?_⟩
        simp only [List.length_nil, List.length_cons] at hge ⊢
        omega
      · refine ⟨c :: before, row, after, hcut', ?_, ?_⟩ <;> simp only [List.length_cons] <;> omega

/-- The row of a cut is the one behind as many line feeds as are before it. -/
theorem CutsRow.getElem?_rows (h : CutsRow source before row after) :
    (rows source)[before.count '\n']? = some row ∧
      rowStart source (before.count '\n') = before.length := by
  have hrows : ∃ rest, rows (row ++ after) = row :: rest := by
    rcases h.stop with rfl | ⟨cs, rfl⟩
    · exact ⟨[], by rw [List.append_nil, rows_of_not_mem h.free]⟩
    · exact ⟨rows cs, by rw [rows_append, rows_of_not_mem h.free, List.singleton_append]⟩
  obtain ⟨rest, hrest⟩ := hrows
  rcases h.start with rfl | ⟨cs, rfl⟩
  · rw [h.eq, List.nil_append, hrest]
    exact ⟨rfl, rfl⟩
  · have hcount : (cs ++ ['\n']).count '\n' = (rows cs).length := by
      rw [length_rows, List.count_append, List.count_singleton_self]
    have hsource : rows source = rows cs ++ row :: rest := by
      rw [h.eq, List.append_assoc, List.singleton_append, rows_append, hrest]
    rw [hcount, rowStart, hsource, List.take_left, sum_rows]
    exact ⟨by simp, by simp⟩

/-- Characters that are no line feeds are passed over on the same line. -/
theorem locateFrom_append (hcs : '\n' ∉ cs) (read : List Char) (o : Nat) :
    locateFrom line read (cs ++ rest) (cs.length + o) =
      locateFrom line (cs.reverse ++ read) rest o := by
  induction cs generalizing read with
  | nil => simp
  | cons c cs ih =>
    simp only [List.mem_cons, not_or] at hcs
    have hlength : (c :: cs).length + o = cs.length + o + 1 := by
      rw [List.length_cons]
      omega
    rw [List.cons_append, hlength, locateFrom, ih hcs.2]
    · simp
    · exact fun hc => hcs.1 hc.symm

/-- Behind a line feed the next line begins, after all the line feeds passed over. -/
theorem locateFrom_newline (cs read : List Char) (o : Nat) :
    locateFrom line read (cs ++ '\n' :: rest) (cs.length + 1 + o) =
      locateFrom (line + cs.count '\n' + 1) [] rest o := by
  induction cs generalizing line read with
  | nil =>
    rw [List.length_nil, show 0 + 1 + o = o + 1 by omega]
    rfl
  | cons c cs ih =>
    have hlength : (c :: cs).length + 1 + o = cs.length + 1 + o + 1 := by
      rw [List.length_cons]
      omega
    rw [List.cons_append, hlength]
    by_cases hc : c = '\n'
    · subst hc
      rw [locateFrom, ih, List.count_cons_self, Nat.add_right_comm line 1]
      rfl
    · rw [locateFrom, ih, List.count_cons_of_ne hc]
      exact hc

/-- Where the offset is reached, the line goes on up to the next line feed. -/
theorem locateFrom_zero (read cs : List Char) :
    locateFrom line read cs 0 = ⟨line, read.length + 1,
      trimEnd (· == '\r') (read.reverse ++ cs.takeWhile (· != '\n'))⟩ := by
  cases cs <;> rw [locateFrom] <;> simp

/-- The offset of a column of the first row. -/
theorem locateFrom_row (hrow : '\n' ∉ row) (hafter : after = [] ∨ ∃ cs, after = '\n' :: cs)
    (ho : o ≤ row.length) :
    locateFrom line [] (row ++ after) o = ⟨line, o + 1, trimEnd (· == '\r') row⟩ := by
  have hfree : ∀ d ∈ row.drop o, (d != '\n') = true := by
    intro d hd
    rw [bne_iff_ne]
    rintro rfl
    exact hrow (List.mem_of_mem_drop hd)
  have hwhile : (row.drop o ++ after).takeWhile (· != '\n') = row.drop o := by
    rw [List.takeWhile_append_of_pos hfree]
    rcases hafter with rfl | ⟨cs, rfl⟩ <;> simp
  have htake : (row.take o).length + 0 = o := by simp [ho]
  have hpassed : locateFrom line [] (row.take o ++ (row.drop o ++ after))
      ((row.take o).length + 0) = locateFrom line ((row.take o).reverse ++ [])
        (row.drop o ++ after) 0 :=
    locateFrom_append (fun h => hrow (List.mem_of_mem_take h)) [] 0
  rw [← List.append_assoc, List.take_append_drop, htake] at hpassed
  rw [hpassed, locateFrom_zero, hwhile]
  simp [ho]

/-- An offset is located by the row that it lies on. -/
theorem CutsRow.locate_eq (h : CutsRow source before row after) (hle : before.length ≤ o)
    (hge : o ≤ before.length + row.length) :
    locate source o =
      ⟨before.count '\n' + 1, o - before.length + 1, trimEnd (· == '\r') row⟩ := by
  have hlength : source.length = before.length + (row.length + after.length) := by
    rw [h.eq, List.length_append, List.length_append]
  rw [locate, clampOffset_natCast (by omega), h.eq]
  rcases h.start with rfl | ⟨cs, rfl⟩
  · exact locateFrom_row h.free h.stop (by simpa using hge)
  · obtain ⟨k, rfl⟩ := Nat.exists_eq_add_of_le hle
    have hk : k ≤ row.length := by omega
    rw [List.length_append, List.length_singleton, List.append_assoc, List.singleton_append,
      locateFrom_newline, locateFrom_row h.free h.stop hk]
    simp [Nat.add_comm]

end Cuts

/-! ### Locating -/

section Locating

variable {source : List Char}

/-- The place of an offset is one in the rows of the source, and has this offset. -/
theorem isIn_locate {o : Nat} (h : o ≤ source.length) :
    (locate source o).IsIn source ∧ (locate source o).offset source = o := by
  obtain ⟨before, row, after, hcut, hle, hge⟩ := exists_cutsRow source h
  obtain ⟨hrow, hstart⟩ := hcut.getElem?_rows
  rw [hcut.locate_eq hle hge]
  refine ⟨⟨⟨by simp, (List.getElem?_eq_some_iff.mp hrow).1⟩, row, hrow, by simp, ?_, rfl⟩, ?_⟩
  · simp only
    omega
  · simp only [Location.offset, Nat.add_sub_cancel, hstart]
    omega

/-- Only the nearest offset within the source matters. -/
theorem locate_clampOffset (source : List Char) (offset : Int) :
    locate source offset = locate source (clampOffset source.length offset : Nat) := by
  have hle : clampOffset source.length offset ≤ source.length := Nat.min_le_right _ _
  rw [locate, locate, clampOffset_natCast hle]

/-- Locating is the inverse of addressing by line and column. Every offset, moved into the source,
has a place in the rows, and it is the offset of this place; every place in the rows is found from
its offset; and the places of the offsets of a source are in the order of reading. -/
theorem locate_inverse (source : List Char) :
    (∀ offset : Int, (locate source offset).IsIn source ∧
      ((locate source offset).offset source : Int) = max 0 (min offset source.length)) ∧
    (∀ l : Location, l.IsIn source → locate source (l.offset source) = l) ∧
    ∀ a b : Nat, a < b → b ≤ source.length →
      (locate source a).Before (locate source b) := by
  refine ⟨fun offset => ?_, fun l hl => ?_, fun a b hab hb => ?_⟩
  · obtain ⟨hin, hoffset⟩ := isIn_locate (Nat.min_le_right offset.toNat source.length)
    rw [locate_clampOffset, clampOffset, hoffset]
    exact ⟨hin, by omega⟩
  · obtain ⟨hin, hoffset⟩ := isIn_locate hl.offset_le
    exact hin.eq_of_offset_eq hl hoffset
  · obtain ⟨-, ha⟩ := isIn_locate (show a ≤ source.length by omega)
    obtain ⟨hin, hb⟩ := isIn_locate hb
    exact hin.before (by omega)

/-- In a source of three rows, the first of which ends with a carriage return and the second of
which is empty, an offset far behind the end is that of the end, the place right behind the first
row is that of its line feed, and the empty row follows it. -/
theorem locate_inverse_threeRows :
    ((locate ['1', '\r', '\n', '\n', 'x'] 9).offset ['1', '\r', '\n', '\n', 'x'] : Int) = 5 ∧
    (⟨1, 3, ['1']⟩ : Location).IsIn ['1', '\r', '\n', '\n', 'x'] ∧
    locate ['1', '\r', '\n', '\n', 'x'] 2 = ⟨1, 3, ['1']⟩ ∧
    (locate ['1', '\r', '\n', '\n', 'x'] 2).Before (locate ['1', '\r', '\n', '\n', 'x'] 3) := by
  obtain ⟨hplace, hfound, horder⟩ := locate_inverse ['1', '\r', '\n', '\n', 'x']
  have hin : (⟨1, 3, ['1']⟩ : Location).IsIn ['1', '\r', '\n', '\n', 'x'] :=
    ⟨by decide, ['1', '\r'], by decide⟩
  exact ⟨(hplace 9).2, hin, hfound _ hin, horder 2 3 (by decide) (by decide)⟩

end Locating

end Reckoner
