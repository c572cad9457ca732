import Reckoner.Proofs.Scanning.Insertion

/-!
# Scanning on both sides of blanks

No text of a token has a blank in it, so a scan cannot tell whether a source ends or goes on with a
blank: what leads the source, and what it is refused for, stay the same. And a scan does not depend
on the place that it starts at, except that its tokens and its fault stand there. So two sources
with blanks between them are scanned one after the other.
-/

namespace Reckoner

/-! ### Starting elsewhere -/

/-- A span that is moved on by a number of characters. -/
def Span.shift (n : Int) (s : Span) : Span := ⟨s.start + n, s.stop + n⟩

/-- The outcome of a scan, with all that it says placed anew. -/
def relocateScan (place : Span → Span) (x : Except Fault (List Token)) :
    Except Fault (List Token) :=
  (x.map (List.map (Token.relocate place))).mapError (Fault.relocate place)

/-- The token of a front moves with the front. -/
theorem Front.toToken_shift (f : Front) (n pos : Nat) :
    f.toToken (pos + n) =
      ((f.toToken pos).map (Option.map (Token.relocate (Span.shift n)))).mapError
        (Fault.relocate (Span.shift n)) := by
  have hspan : (⟨(pos + n : Nat), (pos + n : Nat) + f.length⟩ : Span) =
      Span.shift n ⟨pos, pos + f.length⟩ := by
    simp only [Span.shift, Int.natCast_add, Int.add_right_comm]
  simp only [toToken, hspan]
  cases f with
  | numeral m =>
    dsimp only
    cases m.toValue <;> rfl
  | _ => rfl

/-- A scan that starts at another place gives the same tokens there, or the same fault. -/
theorem scanFrom_shift (n : Nat) (cs : List Char) (skip pos : Nat) :
    scanFrom cs skip (pos + n) = relocateScan (Span.shift n) (scanFrom cs skip pos) := by
  induction cs generalizing skip pos with
  | nil =>
    rw [scanFrom, scanFrom, Int.natCast_add]
    rfl
  | cons c cs ih =>
    cases skip with
    | succ k =>
      rw [scanFrom, scanFrom, Nat.add_right_comm, ih]
    | zero =>
      rw [scanFrom, scanFrom]
      cases Front.ofCons? c cs with
      | none =>
        simp only [Fault.invalidCharacter, relocateScan, Span.shift, Fault.relocate, Except.map,
          Except.mapError, Int.natCast_add, Int.add_right_comm]
      | some f =>
        simp only [f.toToken_shift, Nat.add_right_comm pos n, ih]
        cases f.toToken pos with
        | error e => rfl
        | ok t =>
          cases scanFrom cs (f.length - 1) (pos + 1) with
          | error e => rfl
          | ok ts => cases t <;> rfl

/-! ### Going on with a blank -/

section Continued

variable {text source rest : List Char} {c : Char} {p : Nat}

/-- A text without blanks at the front of a source that goes on with a blank is at the front of the
source before the blank. -/
theorem isPrefix_of_append_blank (hc : IsBlank c) (htext : ∀ d ∈ text, ¬IsBlank d)
    (h : text <+: source ++ c :: rest) : text <+: source := by
  rcases List.prefix_or_prefix_of_prefix h (List.prefix_append source (c :: rest)) with h' | h'
  · exact h'
  · obtain ⟨tail, rfl⟩ := h'
    rw [List.prefix_append_right_inj] at h
    cases tail with
    | nil => simp
    | cons d tail =>
      obtain ⟨rfl, -⟩ := List.cons_prefix_cons.mp h
      exact absurd hc (htext d (by simp))

/-- What leads a source also leads it if it goes on with a blank. -/
theorem Leads.append_blank (h : Leads text source) (hc : IsBlank c) (rest : List Char) :
    Leads text (source ++ c :: rest) := by
  refine ⟨h.front.trans (List.prefix_append _ _), h.lexical, fun other hfront hother => ?_⟩
  exact h.longest other
    (isPrefix_of_append_blank hc (fun _ hd => hother.not_isBlank hd) hfront) hother

/-- A source is refused for the same reason if it goes on with a blank. -/
theorem Refuses.append_blank {f : Fault} (h : Refuses source p f) (hc : IsBlank c)
    (rest : List Char) : Refuses (source ++ c :: rest) p f := by
  cases h with
  | character hhead hblank hnone =>
    refine .character ?_ hblank fun text hfront htext => ?_
    · rw [List.head?_append, hhead, Option.some_or]
    · exact hnone text
        (isPrefix_of_append_blank hc (fun _ hd => htext.not_isBlank hd) hfront) htext
  | tooManyDigits hleads hwhole hlimit =>
    exact .tooManyDigits (hleads.append_blank hc rest) hwhole hlimit
  | outOfRange hleads hwhole hlimit hvalue =>
    exact .outOfRange (hleads.append_blank hc rest) hwhole hlimit hvalue

/-- A source is cut in the same way if it goes on with a blank. -/
theorem Cut.append_blank {ts : List Token} (h : Cut source p ts) (hc : IsBlank c)
    (rest : List Char) : Cut (source ++ c :: rest) p ts := by
  induction h with
  | start => exact .start
  | blank _ hget hb ih =>
    have hlt := (List.getElem?_eq_some_iff.mp hget).1
    exact ih.blank (by rw [List.getElem?_append_left hlt, hget]) hb
  | token hcut hleads hw ih =>
    refine ih.token ?_ hw
    rw [List.drop_append_of_le_length hcut.le_length]
    exact hleads.append_blank hc rest

/-- A source is refused for one reason only. -/
theorem Refuses.unique {f g : Fault} (hf : Refuses source p f) (hg : Refuses source p g) :
    f = g := by
  cases hf with
  | character hhead _ hnone =>
    cases hg with
    | character hhead' _ _ =>
      obtain rfl := Option.some.inj (hhead.symm.trans hhead')
      rfl
    | tooManyDigits hleads _ _ | outOfRange hleads _ _ _ =>
      exact absurd hleads.lexical (hnone _ hleads.front)
  | tooManyDigits hleads _ hlimit =>
    cases hg with
    | character _ _ hnone => exact absurd hleads.lexical (hnone _ hleads.front)
    | tooManyDigits hleads' _ _ =>
      obtain rfl := hleads.unique hleads'
      rfl
    | outOfRange hleads' _ hlimit' _ =>
      obtain rfl := hleads.unique hleads'
      exact absurd hlimit (Nat.not_lt_of_le hlimit')
  | outOfRange hleads _ hlimit _ =>
    cases hg with
    | character _ _ hnone => exact absurd hleads.lexical (hnone _ hleads.front)
    | tooManyDigits hleads' _ hlimit' =>
      obtain rfl := hleads.unique hleads'
      exact absurd hlimit' (Nat.not_lt_of_le hlimit)
    | outOfRange hleads' _ _ _ =>
      obtain rfl := hleads.unique hleads'
      rfl

/-- A scan of a source that is refused ends with the reason. -/
theorem Refuses.scanFrom_eq {f : Fault} (h : Refuses source p f) :
    scanFrom source 0 p = .error f := by
  cases source with
  | nil =>
    cases h with
    | character hhead _ _ => cases hhead
    | tooManyDigits hleads _ _ | outOfRange hleads _ _ _ =>
      obtain ⟨d, r, rfl, -⟩ := hleads.lexical.exists_head
      cases List.prefix_nil.mp hleads.front
  | cons c cs =>
    rcases scanFrom_cases c cs p with ⟨hb, -⟩ | ⟨text, l, hleads, hw, -⟩ | ⟨g, hg, hscan⟩
    · exact absurd hb h.not_isBlank
    · exact absurd hw (h.not_writes hleads l)
    · rw [hscan, h.unique hg]

end Continued

/-- Behind a source that is cut up to its end, and behind blanks, a scan goes on with the next
source. -/
private theorem scan_append_of_cut {a b w : List Char} {us : List Token} (hcut : Cut a a.length us)
    (hw : w ≠ []) (hblank : ∀ c ∈ w, IsBlank c) :
    scanFrom (a ++ w ++ b) 0 0 =
      (relocateScan (Span.shift (a.length + w.length)) (scanFrom b 0 0)).map (us ++ ·) := by
  obtain ⟨c, w, rfl⟩ := List.exists_cons_of_ne_nil hw
  have hcontinued : Cut (a ++ (c :: w) ++ b) a.length us := by
    rw [List.append_assoc]
    exact hcut.append_blank (hblank c List.mem_cons_self) (w ++ b)
  have hfront : c :: w <+: (a ++ (c :: w) ++ b).drop a.length := by
    rw [List.append_assoc, List.drop_left]
    exact List.prefix_append _ _
  have hover := (hcontinued.blanks hblank hfront).scanFrom_eq
  have hdrop : (a ++ (c :: w) ++ b).drop (a.length + (c :: w).length) = b := by
    rw [← List.length_append, List.drop_left]
  have hshift := scanFrom_shift (a.length + (c :: w).length) b 0 0
  rw [Nat.zero_add, Int.natCast_add] at hshift
  rw [hover, hdrop, hshift]

/-- A source that is refused is refused for the same reason if blanks and another source follow. -/
private theorem scan_append_of_refuses {a b w : List Char} {p : Nat} {us : List Token} {f : Fault}
    (hcut : Cut a p us) (hrefuses : Refuses (a.drop p) p f) (hw : w ≠ [])
    (hblank : ∀ c ∈ w, IsBlank c) : scanFrom (a ++ w ++ b) 0 0 = .error f := by
  obtain ⟨c, w, rfl⟩ := List.exists_cons_of_ne_nil hw
  have hc : IsBlank c := hblank c List.mem_cons_self
  rw [List.append_assoc, List.cons_append, (hcut.append_blank hc (w ++ b)).scanFrom_eq,
    List.drop_append_of_le_length hcut.le_length, (hrefuses.append_blank hc (w ++ b)).scanFrom_eq]
  rfl

/-- With a run of blanks between them, two sources are scanned exactly if each of them is. The
tokens are those of the first, but for its end, and then those of the second, moved on by what
precedes it. Else the fault is that of the first source, or that of the second moved on, if the
first has none. -/
theorem scan_append_blanks (a b : String) {w : String} (hw : w ≠ "")
    (hblank : ∀ c ∈ w.toList, IsBlank c) :
    ((∃ ts, scan (a ++ w ++ b) = .ok ts) ↔ (∃ ts, scan a = .ok ts) ∧ ∃ us, scan b = .ok us) ∧
    (∀ ts us, scan a = .ok ts → scan b = .ok us → scan (a ++ w ++ b) =
      .ok (ts.dropLast ++ us.map (Token.relocate (Span.shift (a.length + w.length))))) ∧
    (∀ f, scan a = .error f → scan (a ++ w ++ b) = .error f) ∧
    ∀ ts f, scan a = .ok ts → scan b = .error f →
      scan (a ++ w ++ b) = .error (f.relocate (Span.shift (a.length + w.length))) := by
  have hne : w.toList ≠ [] := by simpa using hw
  have hscan : scan (a ++ w ++ b) = scanFrom (a.toList ++ w.toList ++ b.toList) 0 0 := by
    rw [scan, String.toList_append, String.toList_append]
  have hcut := scan_cut a
  cases ha : scan a with
  | error f =>
    rw [ha] at hcut
    obtain ⟨p, us, hcut, hrefuses⟩ := hcut
    rw [hscan, scan_append_of_refuses hcut hrefuses hne hblank]
    simp
  | ok ts =>
    rw [ha] at hcut
    obtain ⟨us, rfl, hcut⟩ := hcut
    rw [← String.length_toList] at hcut
    rw [hscan, scan_append_of_cut hcut hne hblank, String.length_toList, String.length_toList,
      ← scan]
    cases scan b with
    | error f => simp [relocateScan, Except.map]
    | ok us => simp [relocateScan, Except.map]

/-- Neither the exponent of `1e` nor the point of `2.` reaches over a blank, and the fault of a lone
point behind a blank is moved on. -/
theorem scan_append_blanks_dangling :
    scan "1e\t +.5" = .ok [⟨.number (some (.integer ⟨1, rfl⟩)), ⟨0, 1⟩⟩,
      ⟨.identifier (some "e"), ⟨1, 2⟩⟩, ⟨.plus, ⟨4, 5⟩⟩, ⟨.number (some (.float 0.5)), ⟨5, 7⟩⟩,
      ⟨.eof, ⟨7, 7⟩⟩] ∧
    scan "2. ." = .error ⟨.invalidCharacter ".", ⟨3, 4⟩⟩ := by
  have hexponent : scan "1e" = .ok [⟨.number (some (.integer ⟨1, rfl⟩)), ⟨0, 1⟩⟩,
      ⟨.identifier (some "e"), ⟨1, 2⟩⟩, ⟨.eof, ⟨2, 2⟩⟩] := by decide +kernel
  have hsum : scan "+.5" = .ok [⟨.plus, ⟨0, 1⟩⟩, ⟨.number (some (.float 0.5)), ⟨1, 3⟩⟩,
      ⟨.eof, ⟨3, 3⟩⟩] := by decide +kernel
  have hdouble : scan "2." = .ok [⟨.number (some (.float 2)), ⟨0, 2⟩⟩, ⟨.eof, ⟨2, 2⟩⟩] := by
    decide +kernel
  have hpoint : scan "." = .error ⟨.invalidCharacter ".", ⟨0, 1⟩⟩ := by decide +kernel
  have htokens := (scan_append_blanks "1e" "+.5" (w := "\t ") (by decide) (by simp [IsBlank])).2.1
    _ _ hexponent hsum
  have hfault := (scan_append_blanks "2." "." (w := " ") (by decide) (by simp [IsBlank])).2.2.2
    _ _ hdouble hpoint
  exact ⟨htokens, hfault⟩

end Reckoner
