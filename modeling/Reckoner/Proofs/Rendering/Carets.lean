import Reckoner.Proofs.Rendering.Rows
import Reckoner.Proofs.Rendering.Wordings

/-!
# Carets under the fault

Every fault of a calculation stands at a text without blanks or at the end of the source. Its
diagnostic has three rows: a heading, the row of the fault, and marks. A text without blanks lies on
one row, and before the carriage returns that the row may end with; so each of its characters has a
caret under it. The end of the source lies behind such carriage returns, and they are missing in
the row that is shown: there the carets stand too far to the left by their number.
-/

namespace Reckoner

open Text

/-! ### Where faults stand -/

/-- A fault covers a text without blanks, or it stands at the end of the source. -/
inductive Fault.Stands (source : List Char) (f : Fault) : Prop where
  /-- The span covers a text. -/
  | text {p : Nat} {cs : List Char} (hspan : f.span = ⟨p, p + cs.length⟩)
      (hfront : cs <+: source.drop p) (hne : cs ≠ []) (hfree : ∀ c ∈ cs, ¬ IsBlank c)
  /-- The span is the end of the source. -/
  | atEnd (hspan : f.span = ⟨source.length, source.length⟩)

section Places

variable {source cs : List Char} {us : List Token} {t : Token} {f : Fault} {p : Nat}

/-- A fault at a token covers the text of the token. -/
theorem Tokenizes.stands (h : Tokenizes source source.length us) (ht : t ∈ us)
    (hspan : f.span = t.span) : f.Stands source := by
  obtain ⟨hstart, hlt, hstop⟩ := h.bounds t ht
  have hwritten := h.written t ht
  obtain ⟨p, hp⟩ := Int.eq_ofNat_of_zero_le hstart
  obtain ⟨k, hk⟩ := Int.le.dest (Int.le_of_lt hlt)
  have htoken : t.span = ⟨p, p + k⟩ := by
    rw [← hp, hk]
  have hle : p + k ≤ source.length := by omega
  rw [htoken, Span.text_eq_take] at hwritten
  have hlength : ((source.drop p).take k).length = k := by
    rw [List.length_take, List.length_drop]
    omega
  obtain ⟨c, r, hcons, -⟩ := hwritten.lexical.exists_head
  refine .text (p := p) (by rw [hspan, htoken, hlength]) (List.take_prefix k _) ?_
    fun c hc => hwritten.lexical.not_isBlank hc
  rw [hcons]
  exact List.cons_ne_nil c r

/-- A character or a literal that is refused is covered. -/
theorem Refuses.stands (h : Refuses (source.drop p) p f) : f.Stands source := by
  cases h with
  | @character c hc hblank _ =>
    obtain ⟨cs, hcs⟩ := List.head?_eq_some_iff.mp hc
    have hfront : [c] <+: source.drop p := ⟨cs, hcs.symm⟩
    refine .text ?_ hfront (List.cons_ne_nil c []) (List.forall_mem_singleton.mpr hblank)
    rfl
  | tooManyDigits hleads hwhole _ | outOfRange hleads hwhole _ _ =>
    exact .text rfl hleads.front hwhole.1 fun c hc => hleads.lexical.not_isBlank hc

end Places

/-- Every fault of a calculation stands at a text without blanks or at the end of the source, and is
worded on one row. -/
theorem stands_of_calculate {source : String} {ops : FloatOps} {options : Options} {f : Fault}
    (h : (calculate ops options source).result = .error (.fault f)) :
    f.Stands source.toList ∧ IsRow f.message := by
  have hcut := scan_cut source
  unfold calculate at h
  cases hscan : scan source with
  | error g =>
    rw [hscan] at hcut h
    cases h
    obtain ⟨p, us, -, hrefuses⟩ := hcut
    exact ⟨hrefuses.stands, hrefuses.isRow_message⟩
  | ok tokens =>
    rw [hscan] at hcut h
    obtain ⟨us, rfl, hcut⟩ := hcut
    have hus : Tokenizes source.toList source.toList.length us :=
      String.length_toList ▸ hcut.tokenizes
    have hterm := Parser.isTerminated_append_singleton us
      (e := ⟨.eof, ⟨source.length, source.length⟩⟩) rfl
    simp only [Calculation.after, Calculation.parsing] at h
    cases hparse : Parser.parse (us ++ [⟨.eof, ⟨source.length, source.length⟩⟩])
        (.initial .empty options.maxDepth) with
    | error stop s =>
      rw [hparse] at h
      cases h
      obtain ⟨before, t, after, hsplit, -, hspan, hfound⟩ := Parser.exists_blamed hterm hparse
      have ht : t ∈ us ++ [⟨.eof, ⟨source.length, source.length⟩⟩] := by simp [hsplit]
      rcases List.mem_append.mp ht with htu | hteof
      · exact ⟨hus.stands htu hspan, hfound.isRow_message (hus.written t htu).isInRow⟩
      · obtain rfl := List.mem_singleton.mp hteof
        refine ⟨.atEnd (by rw [hspan, String.length_toList]), hfound.isRow_message ?_⟩
        exact fun n hn => by cases hn
    | ok e s =>
      rw [hparse] at h
      simp only [Calculation.evaluating] at h
      cases heval : e.evaluate ops with
      | ok v =>
        rw [heval] at h
        cases h
      | error g =>
        rw [heval] at h
        cases h
        obtain ⟨t, ht, hblames, hrow⟩ := (nodeFaults_isRow ops).exists_mem_walk e heval
        obtain ⟨d, hd⟩ := Parser.derives_of_parse_eq_ok hus.ne_eof rfl hparse
        rw [hd.walk_eq] at ht
        obtain ⟨u, hmem, rfl⟩ := List.mem_map.mp (List.mem_of_mem_filter ht)
        have hwritten := hus.written u hmem
        rw [hwritten.isComplete.completed_eq] at hblames hrow
        exact ⟨hus.stands hmem hblames.1.symm, hrow hwritten.isInRow⟩

/-! ### The row that is shown -/

/-- The number of carriage returns at the end of a text. -/
def returns (cs : List Char) : Nat := (cs.reverse.takeWhile (· == '\r')).length

section Shown

variable {source before row after cs a b : List Char} {f : Fault} {p o : Nat}

/-- A text is what remains without its last carriage returns, and these. -/
theorem trimEnd_append_returns (cs : List Char) :
    trimEnd (· == '\r') cs ++ List.replicate (returns cs) '\r' = cs := by
  have hreturns : cs.reverse.takeWhile (· == '\r') = List.replicate (returns cs) '\r' :=
    List.eq_replicate_iff.mpr ⟨rfl, fun c hc => by simpa using List.mem_takeWhile_imp hc⟩
  have hsplit := congrArg List.reverse (List.takeWhile_append_dropWhile (p := (· == '\r'))
    (l := cs.reverse))
  rwa [List.reverse_append, List.reverse_reverse, hreturns, List.reverse_replicate] at hsplit

/-- Behind a line feed the carriage returns at the end are those of what follows it. -/
theorem returns_append (a b : List Char) : returns (a ++ '\n' :: b) = returns b := by
  rw [returns, returns, List.reverse_append, List.reverse_cons, List.append_assoc,
    List.takeWhile_append]
  split
  · rename_i h
    simp [h]
  · rfl

/-- A text at the front of two parts lies in the first one, if the second one starts with nothing of
it. -/
theorem prefix_of_free (h : cs <+: a ++ b) (hb : ∀ c ∈ b.head?, c ∉ cs) : cs <+: a := by
  rcases List.prefix_or_prefix_of_prefix h (List.prefix_append a b) with h' | ⟨t, rfl⟩
  · exact h'
  · obtain ⟨u, hu⟩ := (List.prefix_append_right_inj a).mp h
    cases t with
    | nil => exact ⟨[], by simp⟩
    | cons c t =>
      rw [← hu] at hb
      exact absurd (by simp) (hb c rfl)

/-- A text without blanks lies on the row of its first character, before the carriage returns at the
end. -/
theorem CutsRow.front (h : CutsRow source before row after) (hle : before.length ≤ p)
    (hge : p ≤ before.length + row.length) (hfront : cs <+: source.drop p)
    (hfree : ∀ c ∈ cs, ¬ IsBlank c) :
    cs <+: (trimEnd (· == '\r') row).drop (p - before.length) := by
  have hdrop : source.drop p = row.drop (p - before.length) ++ after := by
    rw [h.eq, List.drop_append, List.drop_append, List.drop_of_length_le hle, List.nil_append]
    have hzero : p - before.length - row.length = 0 := by omega
    rw [hzero, List.drop_zero]
  have hrow : cs <+: row.drop (p - before.length) := by
    rw [hdrop] at hfront
    refine prefix_of_free hfront fun c hc hmem => hfree c hmem ?_
    rcases h.stop with rfl | ⟨rest, rfl⟩
    · cases hc
    · obtain rfl : '\n' = c := by simpa using hc
      decide
  rw [← trimEnd_append_returns row, List.drop_append] at hrow
  refine prefix_of_free hrow fun c hc hmem => hfree c hmem ?_
  rw [List.drop_replicate] at hc
  obtain ⟨-, rfl⟩ := List.mem_replicate.mp (List.mem_of_mem_head? hc)
  decide

/-- The text of the row that an offset lies on is free of line feeds. -/
theorem newline_not_mem_text_locate (source : List Char) (offset : Int) :
    '\n' ∉ (locate source offset).text := by
  obtain ⟨before, row, after, hcut, hle, hge⟩ :=
    exists_cutsRow source (Nat.min_le_right offset.toNat source.length)
  rw [locate_clampOffset, clampOffset, hcut.locate_eq hle hge]
  intro hmem
  refine hcut.free ?_
  rw [← trimEnd_append_returns row]
  exact List.mem_append_left _ hmem

/-- A text without blanks stands in the row of its first character at the column of its place. -/
theorem front_locate (hfront : cs <+: source.drop p) (hne : cs ≠ [])
    (hfree : ∀ c ∈ cs, ¬ IsBlank c) :
    cs <+: (locate source p).text.drop ((locate source p).column - 1) ∧
      p + cs.length ≤ source.length := by
  have hpos := List.length_pos_iff.mpr hne
  have hlength := hfront.length_le
  rw [List.length_drop] at hlength
  obtain ⟨before, row, after, hcut, hle, hge⟩ := exists_cutsRow source (o := p) (by omega)
  rw [hcut.locate_eq hle hge, Nat.add_sub_cancel]
  exact ⟨hcut.front hle hge hfront hfree, by omega⟩

/-- At the end of a source the row is shown without its carriage returns, and the column is behind
them. -/
theorem column_locate_length (source : List Char) :
    (locate source source.length).text.length + returns source =
      (locate source source.length).column - 1 := by
  obtain ⟨before, row, after, hcut, hle, hge⟩ := exists_cutsRow source (Nat.le_refl _)
  have hlength := congrArg List.length hcut.eq
  rw [List.length_append, List.length_append] at hlength
  obtain rfl : after = [] := List.length_eq_zero_iff.mp (by omega)
  have hreturns : returns source = returns row := by
    rw [hcut.eq, List.append_nil]
    rcases hcut.start with rfl | ⟨cs, rfl⟩
    · rfl
    · rw [List.append_assoc, List.singleton_append, returns_append]
  have hrow := congrArg List.length (trimEnd_append_returns row)
  rw [List.length_append, List.length_replicate] at hrow
  rw [hcut.locate_eq hle hge, hreturns]
  simp only [List.length_nil] at hlength ⊢
  omega

end Shown

/-! ### Diagnostics -/

/-- The heading of a diagnostic: the line, the column and the wording. -/
def Fault.heading (f : Fault) (l : Location) : String :=
  "line " ++ toString l.line ++ ", column " ++ toString l.column ++ ": " ++ f.message

/-- The marks of a diagnostic: the padding and the carets. -/
def Fault.marks (f : Fault) (l : Location) : List Char :=
  caretPadding l ++ List.replicate (caretCount f.span l) '^'

section Diagnostics

variable {source : String} {ops : FloatOps} {options : Options} {f : Fault} {l : Location}

theorem length_caretPadding (l : Location) :
    (caretPadding l).length = min (l.column - 1) l.text.length := by
  rw [caretPadding, List.length_map, List.length_take]

/-- The padding is made of tabs and spaces. -/
theorem mem_caretPadding {c : Char} (h : c ∈ caretPadding l) : c = '\t' ∨ c = ' ' := by
  obtain ⟨d, -, rfl⟩ := List.mem_map.mp h
  split
  · exact .inl rfl
  · exact .inr rfl

/-- Each character of the padding is a tab exactly if the one over it is. -/
theorem eq_of_getElem?_caretPadding {i : Nat} {c : Char} (h : (caretPadding l)[i]? = some c) :
    c = if l.text[i]? = some '\t' then '\t' else ' ' := by
  rw [caretPadding, List.getElem?_map, Option.map_eq_some_iff] at h
  obtain ⟨d, hd, rfl⟩ := h
  rw [List.getElem?_take] at hd
  split at hd
  · simp [hd]
  · cases hd

/-- There is a caret. -/
theorem mem_marks (f : Fault) (l : Location) : '^' ∈ f.marks l := by
  have hpos : caretCount f.span l ≠ 0 := by
    simp only [caretCount]
    omega
  exact List.mem_append_right _ (List.mem_replicate.mpr ⟨hpos, rfl⟩)

/-- What stands before the first caret is the padding. -/
theorem takeWhile_marks (f : Fault) (l : Location) :
    (f.marks l).takeWhile (· != '^') = caretPadding l := by
  have hpadding : ∀ c ∈ caretPadding l, (c != '^') = true := by
    intro c hc
    rcases mem_caretPadding hc with rfl | rfl <;> decide
  rw [Fault.marks, List.takeWhile_append_of_pos hpadding, List.takeWhile_replicate]
  simp

/-- Where a fault is worded on one row, its diagnostic has three. -/
theorem rows_diagnostic (source : String) (h : IsRow f.message) :
    rows (f.diagnostic source).toList = [(f.heading (locate source.toList f.span.start)).toList,
      (locate source.toList f.span.start).text,
      f.marks (locate source.toList f.span.start)] := by
  have htext := newline_not_mem_text_locate source.toList f.span.start
  generalize hl : locate source.toList f.span.start = l at htext ⊢
  have hheading : '\n' ∉ (f.heading l).toList := by
    have hrow : IsRow (f.heading l) := by
      unfold Fault.heading
      simp only [isRow_append, and_assoc]
      refine ⟨?_, isRow_toString_nat _, ?_, isRow_toString_nat _, ?_, h⟩ <;> simp [IsRow]
    exact hrow
  have hmarks : '\n' ∉ f.marks l := by
    intro hmem
    rcases List.mem_append.mp hmem with hmem | hmem
    · rcases mem_caretPadding hmem with h | h <;> cases h
    · cases (List.mem_replicate.mp hmem).2
  have hsplit : (f.diagnostic source).toList =
      (f.heading l).toList ++ '\n' :: (l.text ++ '\n' :: f.marks l) := by
    unfold Fault.diagnostic Fault.heading Fault.marks
    rw [hl]
    simp
  rw [hsplit, rows_append, rows_append, rows_of_not_mem hheading, rows_of_not_mem htext,
    rows_of_not_mem hmarks]
  rfl

/-- A fault of a calculation stands at a place of its source. -/
theorem Fault.Stands.isIn_locate {source : List Char} (h : f.Stands source) :
    (locate source f.span.start).IsIn source ∧
      ((locate source f.span.start).offset source : Int) = f.span.start := by
  have hstart : ∃ p : Nat, f.span.start = p ∧ p ≤ source.length := by
    cases h with
    | text hspan hfront hne hfree =>
      exact ⟨_, by rw [hspan], Nat.le_of_add_right_le (front_locate hfront hne hfree).2⟩
    | atEnd hspan => exact ⟨source.length, by rw [hspan], Nat.le_refl _⟩
  obtain ⟨p, hp, hle⟩ := hstart
  rw [hp]
  obtain ⟨hin, hoffset⟩ := Reckoner.isIn_locate hle
  exact ⟨hin, congrArg Int.ofNat hoffset⟩

/-- There is a caret under every character that a text has behind a column. -/
theorem caretCount_eq {p k : Nat} {l : Location} (hk : 0 < k)
    (h : l.column - 1 + k ≤ l.text.length) (hcolumn : 1 ≤ l.column) :
    caretCount ⟨p, p + k⟩ l = k := by
  simp only [caretCount]
  omega

/-- The diagnostic of a fault with a span that is not empty has three rows: the heading with its
line and column, this line without carriage returns at its end, and marks. These are as much padding
as there is before the column, with a tab exactly under each tab, and a caret for each character of
the span, under which the text of the span stands. -/
theorem diagnostic_threeRows
    (h : (calculate ops options source).result = .error (.fault f))
    (hspan : f.span.start < f.span.stop) :
    ∃ l : Location, l.IsIn source.toList ∧ (l.offset source.toList : Int) = f.span.start ∧
      ∃ (padding : List Char) (width : Nat), (width : Int) = f.span.stop - f.span.start ∧
        rows (f.diagnostic source).toList =
          [(f.heading l).toList, l.text, padding ++ List.replicate width '^'] ∧
        padding.length = l.column - 1 ∧
        (∀ (i : Nat) c, padding[i]? = some c → c = if l.text[i]? = some '\t' then '\t' else ' ') ∧
        (l.text.drop (l.column - 1)).take width = f.span.text source.toList ∧
        (f.span.text source.toList).length = width := by
  obtain ⟨hstands, hrow⟩ := stands_of_calculate h
  obtain ⟨hin, hoffset⟩ := hstands.isIn_locate
  have hrows := rows_diagnostic source hrow
  cases hstands with
  | atEnd hend =>
    rw [hend] at hspan
    exact absurd hspan (Int.lt_irrefl _)
  | @text p cs htext hfront hne hfree =>
    have hstart : f.span.start = p := by rw [htext]
    obtain ⟨hfront', hle⟩ := front_locate hfront hne hfree
    rw [hstart] at hin hoffset hrows
    generalize locate source.toList p = l at hin hoffset hrows hfront'
    obtain ⟨row, -, hcolumn, -⟩ := hin.column
    have hlength := hfront'.length_le
    rw [List.length_drop] at hlength
    have hpos := List.length_pos_iff.mpr hne
    refine ⟨l, hin, by rw [hoffset, hstart], caretPadding l, cs.length, ?_, ?_, ?_, ?_, ?_, ?_⟩
    · simp [htext]
    · rw [hrows, Fault.marks, htext, caretCount_eq hpos (by omega) hcolumn]
    · rw [length_caretPadding]
      omega
    · exact fun i c hc => eq_of_getElem?_caretPadding hc
    · rw [htext, Span.text_eq hfront, ← List.prefix_iff_eq_take.mp hfront']
    · rw [htext, Span.text_eq hfront]

/-- In `1 +` and, on the next line, a tab and `12 $\r`, the sign `$` has one caret under it, behind
a tab and three spaces. -/
theorem diagnostic_threeRows_afterTab :
    (calculate .machine .default "1 +\n\t12 $\r").result =
        .error (.fault ⟨.invalidCharacter "$", ⟨8, 9⟩⟩) ∧
    ∃ l : Location, l.IsIn "1 +\n\t12 $\r".toList ∧
      (l.offset "1 +\n\t12 $\r".toList : Int) = 8 ∧
      ∃ (padding : List Char) (width : Nat), (width : Int) = 9 - 8 ∧
        rows (Fault.diagnostic ⟨.invalidCharacter "$", ⟨8, 9⟩⟩ "1 +\n\t12 $\r").toList =
          [(Fault.heading ⟨.invalidCharacter "$", ⟨8, 9⟩⟩ l).toList, l.text,
            padding ++ List.replicate width '^'] ∧
        padding.length = l.column - 1 ∧
        (∀ (i : Nat) c, padding[i]? = some c →
          c = if l.text[i]? = some '\t' then '\t' else ' ') ∧
        (l.text.drop (l.column - 1)).take width = Span.text ⟨8, 9⟩ "1 +\n\t12 $\r".toList ∧
        (Span.text ⟨8, 9⟩ "1 +\n\t12 $\r".toList).length = width := by
  have h : (calculate .machine .default "1 +\n\t12 $\r").result =
      .error (.fault ⟨.invalidCharacter "$", ⟨8, 9⟩⟩) := by decide +kernel
  exact ⟨h, diagnostic_threeRows h (by decide)⟩

/-- In the diagnostic of any fault the first caret stands in the column of the heading, or at the
end of the source too far to the left by the number of carriage returns that the source ends with.
-/
theorem caretColumn_of_calculate
    (h : (calculate ops options source).result = .error (.fault f)) :
    ∃ l : Location, l.IsIn source.toList ∧ (l.offset source.toList : Int) = f.span.start ∧
      ∃ marks, rows (f.diagnostic source).toList = [(f.heading l).toList, l.text, marks] ∧
        '^' ∈ marks ∧
        (marks.takeWhile (· != '^')).length +
          (if f.span.start = source.length then returns source.toList else 0) = l.column - 1 := by
  obtain ⟨hstands, hrow⟩ := stands_of_calculate h
  obtain ⟨hin, hoffset⟩ := hstands.isIn_locate
  have hrows := rows_diagnostic source hrow
  refine ⟨_, hin, hoffset, _, hrows, mem_marks _ _, ?_⟩
  rw [takeWhile_marks, length_caretPadding]
  cases hstands with
  | @text p cs htext hfront hne hfree =>
    obtain ⟨hfront', hle⟩ := front_locate hfront hne hfree
    have hpos := List.length_pos_iff.mpr hne
    have hlength := hfront'.length_le
    have hstart : f.span.start = p := by rw [htext]
    rw [List.length_drop] at hlength
    rw [String.length_toList] at hle
    rw [hstart, if_neg (by omega)]
    omega
  | atEnd hend =>
    have hstart : f.span.start = source.toList.length := by rw [hend]
    have hcolumn := column_locate_length source.toList
    rw [hstart, if_pos (by rw [String.length_toList])]
    omega

/-- In `x +` and two line ends of both kinds, the last of which is a lone carriage return, the caret
stands one column too far to the left. -/
theorem caretColumn_loneReturn :
    (calculate .machine .default "x +\r\n\r").result =
        .error (.fault ⟨.expectedPrimary .eof Cause.primaryWanted, ⟨6, 6⟩⟩) ∧
    ∃ l : Location, l.IsIn "x +\r\n\r".toList ∧ (l.offset "x +\r\n\r".toList : Int) = 6 ∧
      ∃ marks, rows (Fault.diagnostic ⟨.expectedPrimary .eof Cause.primaryWanted, ⟨6, 6⟩⟩
          "x +\r\n\r").toList =
        [(Fault.heading ⟨.expectedPrimary .eof Cause.primaryWanted, ⟨6, 6⟩⟩ l).toList, l.text,
          marks] ∧ '^' ∈ marks ∧ (marks.takeWhile (· != '^')).length + 1 = l.column - 1 := by
  have h : (calculate .machine .default "x +\r\n\r").result =
      .error (.fault ⟨.expectedPrimary .eof Cause.primaryWanted, ⟨6, 6⟩⟩) := by decide +kernel
  obtain ⟨l, hin, hoffset, marks, hrows, hmem, hcolumn⟩ := caretColumn_of_calculate h
  exact ⟨h, l, hin, hoffset, marks, hrows, hmem, hcolumn⟩

/-- Not every caret stands in the column of its heading: behind `1 +\r` it does not. -/
theorem exists_caretColumn_ne :
    ¬ ∀ (ops : FloatOps) (options : Options) (source : String) (f : Fault) (l : Location)
      (marks : List Char),
      (calculate ops options source).result = .error (.fault f) → l.IsIn source.toList →
      (l.offset source.toList : Int) = f.span.start →
      rows (f.diagnostic source).toList = [(f.heading l).toList, l.text, marks] →
        (marks.takeWhile (· != '^')).length = l.column - 1 := by
  intro h
  have hfault : (calculate .machine .default "1 +\r").result =
      .error (.fault ⟨.expectedPrimary .eof Cause.primaryWanted, ⟨4, 4⟩⟩) := by decide +kernel
  have hlocate : locate "1 +\r".toList 4 = ⟨1, 5, ['1', ' ', '+']⟩ := by decide +kernel
  have hin : (⟨1, 5, ['1', ' ', '+']⟩ : Location).IsIn "1 +\r".toList :=
    ⟨by decide +kernel, "1 +\r".toList, by decide +kernel⟩
  have hrows := rows_diagnostic "1 +\r"
    (f := ⟨.expectedPrimary .eof Cause.primaryWanted, ⟨4, 4⟩⟩) (by decide +kernel)
  rw [hlocate] at hrows
  have hlength := h .machine .default "1 +\r" _ _ _ hfault hin (by decide +kernel) hrows
  revert hlength
  decide +kernel

end Diagnostics

end Reckoner
