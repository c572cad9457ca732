import Reckoner.Proofs.Relocation
import Reckoner.Proofs.Scanning.Tokenization

/-!
# Blanks between tokens

Runs of blanks can be inserted into a source before any of its characters and behind the last one.
As long as none is inserted into a token, the source is cut into the same tokens: no text of a token
has a blank in it, so that the text that leads the source at a place still does, whatever run comes
after it. Every token moves on by the characters that were inserted before it.
-/

namespace Reckoner

/-- Characters from an offset on, with a run inserted before each of them and behind the last. -/
def insertRuns (runs : Nat → List Char) : Nat → List Char → List Char
  | p, [] => runs p
  | p, c :: cs => runs p ++ c :: insertRuns runs (p + 1) cs

/-- The number of characters that are inserted before the run at an offset. -/
def inserted (runs : Nat → List Char) : Nat → Nat
  | 0 => 0
  | p + 1 => inserted runs p + (runs p).length

/-- The place of a span after an insertion: it moves on by the runs up to its first character. -/
def Span.spread (runs : Nat → List Char) (s : Span) : Span :=
  ⟨s.start + inserted runs (s.start.toNat + 1), s.stop + inserted runs (s.start.toNat + 1)⟩

/-- A span moves on as its first character does. -/
theorem Span.spread_eq (runs : Nat → List Char) (p k : Nat) : Span.spread runs ⟨p, p + k⟩ =
    ⟨(p + inserted runs (p + 1) : Nat), (p + inserted runs (p + 1) : Nat) + k⟩ := by
  simp only [Span.spread, Int.toNat_natCast, Int.natCast_add, Int.add_right_comm]

/-- Runs of blanks, none of them inside a token. -/
structure Spaces (runs : Nat → List Char) (ts : List Token) : Prop where
  /-- The characters of the runs are blanks. -/
  blank : ∀ i, ∀ c ∈ runs i, IsBlank c
  /-- Where a token goes on, nothing is inserted. -/
  outside : ∀ t ∈ ts, ∀ i : Nat, t.span.start < i → i < t.span.stop → runs i = []

/-- The texts of tokens have no blanks in them. -/
theorem IsLexical.not_isBlank {cs : List Char} (h : IsLexical cs) {c : Char} (hc : c ∈ cs) :
    ¬ IsBlank c := by
  intro hb
  simp only [IsBlank, List.mem_cons, List.not_mem_nil, or_false] at hb
  have halpha : c.isAlpha = false := by rcases hb with rfl | rfl | rfl | rfl | rfl | rfl <;> decide
  have hdigit : c.isDigit = false := by rcases hb with rfl | rfl | rfl | rfl | rfl | rfl <;> decide
  rcases h with ⟨n, hn, rfl⟩ | ⟨d, r, rfl, hd, hr⟩ | ⟨l, d, hl, rfl⟩
  · rcases hn.isNumeralChar hc with h | h
    · simp [hdigit] at h
    · rcases hb with rfl | rfl | rfl | rfl | rfl | rfl <;> simp at h
  · rcases List.mem_cons.mp hc with rfl | hc
    · simp [halpha] at hd
    · rcases hr c hc with h | h | rfl
      · simp [halpha] at h
      · simp [hdigit] at h
      · simp at hb
  · obtain rfl := List.mem_singleton.mp hc
    cases l <;> cases hl <;> simp at hb

section Characters

variable {runs : Nat → List Char} {cs text other : List Char} {p q : Nat}

/-- What is inserted before an offset stands before it. -/
theorem drop_insertRuns (h : p ≤ cs.length) :
    (insertRuns runs 0 cs).drop (p + inserted runs p) = insertRuns runs p (cs.drop p) := by
  induction p with
  | zero => rfl
  | succ p ih =>
    have hcons := List.drop_eq_getElem_cons (show p < cs.length by omega)
    have hsum : p + 1 + inserted runs (p + 1) =
        (p + inserted runs p) + ((runs p).length + 1) := by
      rw [inserted]
      omega
    rw [hsum, ← List.drop_drop, ih (by omega), hcons, insertRuns, ← List.drop_drop, List.drop_left]
    rfl

/-- The run at the offset stands first. -/
private theorem exists_insertRuns_eq (runs : Nat → List Char) (p : Nat) (cs : List Char) :
    ∃ rest, insertRuns runs p cs = runs p ++ rest := by
  cases cs with
  | nil => exact ⟨[], (List.append_nil _).symm⟩
  | cons c cs => exact ⟨_, rfl⟩

private theorem length_insertRuns_add (runs : Nat → List Char) (p : Nat) (cs : List Char) :
    (insertRuns runs p cs).length + inserted runs p =
      cs.length + inserted runs (p + cs.length + 1) := by
  induction cs generalizing p with
  | nil => simp [insertRuns, inserted, Nat.add_comm]
  | cons c cs ih =>
    have htail := ih (p + 1)
    have hshift : p + 1 + cs.length + 1 = p + (c :: cs).length + 1 := by simp; omega
    rw [hshift, inserted] at htail
    simp only [insertRuns, List.length_append, List.length_cons] at htail ⊢
    omega

/-- Behind the run at an offset the characters from there on follow. -/
theorem drop_over_run {source : List Char} {c : Char} (hcons : source.drop p = c :: cs) :
    (insertRuns runs 0 source).drop (p + inserted runs (p + 1)) =
      c :: insertRuns runs (p + 1) cs := by
  have hp : p ≤ source.length := by
    have hlength := congrArg List.length hcons
    rw [List.length_drop, List.length_cons] at hlength
    omega
  rw [inserted, ← Nat.add_assoc, ← List.drop_drop, drop_insertRuns hp, hcons, insertRuns,
    List.drop_left]

/-- All runs are inserted. -/
theorem length_insertRuns (runs : Nat → List Char) (cs : List Char) :
    (insertRuns runs 0 cs).length = cs.length + inserted runs (cs.length + 1) := by
  have h := length_insertRuns_add runs 0 cs
  rwa [Nat.zero_add] at h

/-- Empty runs insert nothing. -/
theorem inserted_add {k : Nat} (h : ∀ i, p ≤ i → i < p + k → runs i = []) :
    inserted runs (p + k) = inserted runs p := by
  induction k with
  | zero => rfl
  | succ k ih =>
    rw [← Nat.add_assoc, inserted, h (p + k) (by omega) (by omega), ih fun i hi hlt =>
      h i hi (by omega)]
    rfl

/-- Where nothing is inserted into a text, it still stands at the front. -/
theorem isPrefix_insertRuns (h : text <+: cs)
    (hruns : ∀ i, p ≤ i → i < p + text.length → runs i = []) : text <+: insertRuns runs p cs := by
  induction text generalizing p cs with
  | nil => exact List.nil_prefix
  | cons c text ih =>
    obtain ⟨rest, rfl⟩ := h
    rw [List.length_cons] at hruns
    rw [List.cons_append, insertRuns, hruns p (Nat.le_refl p) (by omega), List.nil_append,
      List.cons_prefix_cons]
    exact ⟨rfl, ih (List.prefix_append _ _) fun i hi hlt => hruns i (by omega) (by omega)⟩

/-- A text without blanks that stands at the front after an insertion stood there before. -/
theorem isPrefix_of_insertRuns (hruns : ∀ i, ∀ c ∈ runs i, IsBlank c)
    (hother : ∀ c ∈ other, ¬ IsBlank c) (h : other <+: insertRuns runs p cs) : other <+: cs := by
  induction other generalizing p cs with
  | nil => exact List.nil_prefix
  | cons c other ih =>
    have hc : ¬ IsBlank c := hother c List.mem_cons_self
    have hrun : runs p = [] := by
      obtain ⟨rest, hrest⟩ := exists_insertRuns_eq runs p cs
      cases hb : runs p with
      | nil => rfl
      | cons b bs =>
        rw [hrest, hb, List.cons_append, List.cons_prefix_cons] at h
        exact absurd (hruns p b (by simp [hb])) (h.1 ▸ hc)
    cases cs with
    | nil =>
      rw [insertRuns, hrun] at h
      cases List.prefix_nil.mp h
    | cons d cs =>
      rw [insertRuns, hrun, List.nil_append, List.cons_prefix_cons] at h
      rw [List.cons_prefix_cons]
      exact ⟨h.1, ih (fun x hx => hother x (List.mem_cons_of_mem c hx)) h.2⟩

/-- The text that leads a source still does if blanks are inserted behind it. -/
theorem Leads.spread {c : Char} (h : Leads text (c :: cs))
    (hblank : ∀ i, ∀ c ∈ runs i, IsBlank c)
    (hruns : ∀ i, p < i → i < p + text.length → runs i = []) :
    Leads text (c :: insertRuns runs (p + 1) cs) := by
  refine ⟨?_, h.lexical, fun other hfront hother => h.longest other ?_ hother⟩
  · obtain ⟨d, text, rfl, -⟩ := h.lexical.exists_head
    obtain ⟨hd, hfront⟩ := List.cons_prefix_cons.mp h.front
    rw [List.length_cons] at hruns
    exact List.cons_prefix_cons.mpr ⟨hd, isPrefix_insertRuns hfront fun i hi hlt =>
      hruns i (by omega) (by omega)⟩
  · obtain ⟨d, other, rfl, -⟩ := hother.exists_head
    obtain ⟨hd, hfront⟩ := List.cons_prefix_cons.mp hfront
    exact List.cons_prefix_cons.mpr ⟨hd, isPrefix_of_insertRuns hblank
      (fun x hx => hother.not_isBlank (List.mem_cons_of_mem d hx)) hfront⟩

/-- A span inside which nothing is inserted covers the same text afterwards. -/
theorem Span.text_spread {source : List Char} {s : Span} (hstart : 0 ≤ s.start)
    (hle : s.start ≤ s.stop) (hstop : s.stop ≤ source.length)
    (hruns : ∀ i : Nat, s.start < i → i < s.stop → runs i = []) :
    Span.text (s.spread runs) (insertRuns runs 0 source) = s.text source := by
  obtain ⟨p, hp⟩ := Int.eq_ofNat_of_zero_le hstart
  obtain ⟨k, hk⟩ := Int.le.dest hle
  obtain rfl : s = ⟨p, p + k⟩ := by rw [← hp, hk]
  rw [Span.spread_eq, Span.text_eq_take, Span.text_eq_take]
  cases k with
  | zero => rfl
  | succ k =>
    simp only [Int.natCast_add] at hstop hruns
    have hcons := List.drop_eq_getElem_cons (show p < source.length by omega)
    have hfront : (source.drop (p + 1)).take k <+:
        insertRuns runs (p + 1) (source.drop (p + 1)) := by
      refine isPrefix_insertRuns (List.take_prefix _ _) fun i hi hlt => hruns i ?_ ?_
      all_goals
        rw [List.length_take] at hlt
        omega
    have hlength : ((source.drop (p + 1)).take k).length = k := by
      rw [List.length_take, List.length_drop]
      omega
    have htake := List.prefix_iff_eq_take.mp hfront
    rw [hlength] at htake
    rw [drop_over_run hcons, hcons, List.take_succ_cons, List.take_succ_cons, htake]

end Characters

namespace Cut

variable {runs : Nat → List Char} {source : List Char} {p : Nat} {ts : List Token}

/-- A cut goes on over blanks. -/
theorem blanks (h : Cut source p ts) {bs : List Char} (hb : ∀ c ∈ bs, IsBlank c)
    (hfront : bs <+: source.drop p) : Cut source (p + bs.length) ts := by
  induction bs generalizing p with
  | nil => exact h
  | cons b bs ih =>
    obtain ⟨rest, hrest⟩ := hfront
    have hget : source[p]? = some b := by
      have hhead : (source.drop p)[0]? = some b := by rw [← hrest]; rfl
      simpa using hhead
    have htail : bs <+: source.drop (p + 1) := by
      rw [← List.drop_drop, ← hrest]
      exact List.prefix_append bs rest
    have hnext := ih (h.blank hget (hb b List.mem_cons_self))
      (fun c hc => hb c (List.mem_cons_of_mem b hc)) htail
    rwa [show p + 1 + bs.length = p + (b :: bs).length by simp; omega] at hnext

/-- A cut goes on over the run that was inserted where it ends. -/
private theorem over_run (hblank : ∀ i, ∀ c ∈ runs i, IsBlank c) (hp : p ≤ source.length)
    {us : List Token} (h : Cut (insertRuns runs 0 source) (p + inserted runs p) us) :
    Cut (insertRuns runs 0 source) (p + inserted runs (p + 1)) us := by
  obtain ⟨rest, hrest⟩ := exists_insertRuns_eq runs p (source.drop p)
  have hfront : runs p <+: (insertRuns runs 0 source).drop (p + inserted runs p) := by
    rw [drop_insertRuns hp, hrest]
    exact List.prefix_append _ _
  have hover := h.blanks (hblank p) hfront
  rwa [Nat.add_assoc] at hover

/-- With runs of blanks inserted between its tokens, a source is cut into the same tokens. -/
theorem spread (h : Cut source p ts) (hs : Spaces runs ts) :
    Cut (insertRuns runs 0 source) (p + inserted runs p)
      (ts.map (Token.relocate (Span.spread runs))) := by
  induction h with
  | start => exact .start
  | @blank p ts c h hc hb ih =>
    obtain ⟨hlt, hget⟩ := List.getElem?_eq_some_iff.mp hc
    have hcons : source.drop p = c :: source.drop (p + 1) := by
      rw [List.drop_eq_getElem_cons hlt, hget]
    have hget' : (insertRuns runs 0 source)[p + inserted runs (p + 1)]? = some c := by
      have hdrop : (insertRuns runs 0 source).drop (p + inserted runs (p + 1)) = c :: _ :=
        drop_over_run hcons
      have hhead := congrArg (·[0]?) hdrop
      simpa using hhead
    have hnext := ((ih hs).over_run hs.blank (Nat.le_of_lt hlt)).blank hget' hb
    rwa [Nat.add_right_comm] at hnext
  | @token p ts text l h hleads hw ih =>
    have hbefore : Spaces runs ts :=
      ⟨hs.blank, fun t ht => hs.outside t (List.mem_append_left _ ht)⟩
    have hinside (i : Nat) (hi : p < i) (hlt : i < p + text.length) : runs i = [] :=
      hs.outside _ (List.mem_append_right _ List.mem_cons_self) i (by simpa using hi)
        (by simpa using by omega)
    obtain ⟨c, text, rfl, -⟩ := hleads.lexical.exists_head
    obtain ⟨rest, hrest⟩ := hleads.front
    have hcons : source.drop p = c :: (text ++ rest) := hrest.symm
    have hlead : Leads (c :: text)
        ((insertRuns runs 0 source).drop (p + inserted runs (p + 1))) := by
      rw [drop_over_run hcons]
      exact (hcons ▸ hleads).spread hs.blank hinside
    have hnext := ((ih hbefore).over_run hs.blank h.le_length).token hlead hw
    -- Nothing is inserted into the token, so that all of it moves on as its first character does.
    have hshift : inserted runs (p + 1 + text.length) = inserted runs (p + 1) :=
      inserted_add fun i hi hlt => hinside i (by omega) (by rw [List.length_cons]; omega)
    have hstop : p + (c :: text).length = p + 1 + text.length := by rw [List.length_cons]; omega
    have hend : p + (c :: text).length + inserted runs (p + (c :: text).length) =
        p + inserted runs (p + 1) + (c :: text).length := by
      rw [hstop, hshift]
      omega
    rw [hend, List.map_append, List.map_singleton, Token.relocate, Span.spread_eq]
    exact hnext

end Cut

section Sources

variable {source : String} {ts : List Token} {runs : Nat → List Char}

/-- The place behind the last character stays there. -/
theorem Span.spread_length (runs : Nat → List Char) (source : String) :
    Span.spread runs ⟨source.length, source.length⟩ =
      ⟨(insertRuns runs 0 source.toList).length, (insertRuns runs 0 source.toList).length⟩ := by
  have hspread := Span.spread_eq runs source.length 0
  rwa [Int.natCast_zero, Int.add_zero, Int.add_zero, ← String.length_toList,
    ← length_insertRuns, String.length_toList] at hspread

/-- With runs of blanks inserted between its tokens, before the first and behind the last of them, a
source is scanned to the same tokens, each of which moved on by the runs before it. -/
theorem scan_insertRuns (h : scan source = .ok ts) (hs : Spaces runs ts) :
    scan (String.ofList (insertRuns runs 0 source.toList)) =
      .ok (ts.map (Token.relocate (Span.spread runs))) := by
  have hcut := scan_cut source
  rw [h] at hcut
  obtain ⟨us, rfl, hcut⟩ := hcut
  have hlength : source.toList.length = source.length := String.length_toList
  have hspaces : Spaces runs us := ⟨hs.blank, fun t ht => hs.outside t (List.mem_append_left _ ht)⟩
  -- The run behind the last character is passed over, and the new source ends there.
  have hwhole := (hcut.spread hspaces).over_run hs.blank (Nat.le_of_eq hlength.symm)
  have hend : source.length + inserted runs (source.length + 1) =
      (insertRuns runs 0 source.toList).length := by rw [length_insertRuns, hlength]
  have hscan := hwhole.scan_take
  rw [hend, List.take_length] at hscan
  rw [hscan, List.map_append, List.map_singleton, Token.relocate, Span.spread_length]

/-- The tokens of a source cover the same texts after an insertion. -/
theorem text_spread_of_scan (h : scan source = .ok ts) (hs : Spaces runs ts) {t : Token}
    (ht : t ∈ ts) :
    Span.text (t.span.spread runs) (insertRuns runs 0 source.toList) =
      t.span.text source.toList := by
  have hcut := scan_cut source
  rw [h] at hcut
  obtain ⟨us, rfl, hcut⟩ := hcut
  have hlength : source.toList.length = source.length := String.length_toList
  have hbounds : 0 ≤ t.span.start ∧ t.span.start ≤ t.span.stop ∧
      t.span.stop ≤ source.toList.length := by
    rcases List.mem_append.mp ht with ht | ht
    · have hb := hcut.tokenizes.bounds t ht
      omega
    · obtain rfl := List.mem_singleton.mp ht
      simp [hlength]
  exact Span.text_spread hbounds.1 hbounds.2.1 hbounds.2.2 (hs.outside t ht)

end Sources

end Reckoner
