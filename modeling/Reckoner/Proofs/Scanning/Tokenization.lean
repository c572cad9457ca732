import Reckoner.Proofs.Scanning.Munch

/-!
# The tokens of a source

A scan cuts its source as the documented rules say. If it succeeds, its tokens stand for all of the
source but blanks, in order and without overlap, each for the longest text of a token at its place.
If it fails, it does so at the first place where the rules leave it no choice, and the source before
that place can be scanned.
-/

namespace Reckoner

/-- The tokens of a source up to an offset that lies in none of them. -/
structure Tokenizes (source : List Char) (stop : Nat) (ts : List Token) : Prop where
  /-- A token does not end the input. -/
  ne_eof : ∀ t ∈ ts, t.lexeme ≠ .eof
  /-- A token covers a part of the source that is not empty. -/
  bounds : ∀ t ∈ ts, 0 ≤ t.span.start ∧ t.span.start < t.span.stop ∧ t.span.stop ≤ stop
  /-- A token ends before the next ones start. -/
  ordered : ts.Pairwise fun t u => t.span.stop ≤ u.span.start
  /-- What no token covers is a blank. -/
  blanks : ∀ (i : Nat) (c : Char), i < stop → source[i]? = some c →
    (∀ t ∈ ts, ¬(t.span.start ≤ i ∧ i < t.span.stop)) → IsBlank c
  /-- A token is written as the text that it covers, and carries what the text says. -/
  written : ∀ t ∈ ts, Writes t.lexeme (t.span.text source)
  /-- The text that a token covers is ASCII. -/
  ascii : ∀ t ∈ ts, ∀ c ∈ t.span.text source, c.toNat < 128
  /-- No longer text from the start of a token on is one of a token. -/
  longest : ∀ t ∈ ts, ∀ k : Nat, t.span.stop < k → k ≤ source.length →
    ¬IsLexical (Span.text ⟨t.span.start, k⟩ source)

/-- Texts of tokens are ASCII. -/
theorem IsLexical.toNat_lt {cs : List Char} (h : IsLexical cs) {c : Char} (hc : c ∈ cs) :
    c.toNat < 128 := by
  have hdigit {d : Char} (hd : d.isDigit = true) : d.toNat < 128 := by
    have := isDigit_iff.mp hd
    omega
  have halpha {d : Char} (hd : d.isAlpha = true) : d.toNat < 128 := by
    have := isAlpha_iff.mp hd
    omega
  rcases h with ⟨n, hn, rfl⟩ | ⟨d, r, rfl, hd, hr⟩ | ⟨l, d, hl, rfl⟩
  · rcases hn.isNumeralChar hc with h | h
    · exact hdigit h
    · simp only [List.mem_cons, List.not_mem_nil, or_false] at h
      rcases h with rfl | rfl | rfl | rfl | rfl <;> decide
  · rcases List.mem_cons.mp hc with rfl | hc
    · exact halpha hd
    · rcases hr c hc with h | h | rfl
      · exact halpha h
      · exact hdigit h
      · decide
  · obtain rfl := List.mem_singleton.mp hc
    cases l <;> cases hl <;> decide

section Spans

variable {source text : List Char} {p k : Nat}

/-- What a span covers leads the rest of the source. -/
theorem Span.text_eq_take (source : List Char) (p k : Nat) :
    Span.text ⟨p, p + k⟩ source = (source.drop p).take k := by
  have hstop : ((p : Int) + k).toNat = p + k := by omega
  rw [Span.text, hstop, Int.toNat_natCast, List.drop_take, Nat.add_sub_cancel_left]

/-- A text at the front of the rest of a source is what its span covers. -/
theorem Span.text_eq (h : text <+: source.drop p) :
    Span.text ⟨p, p + text.length⟩ source = text := by
  rw [Span.text_eq_take]
  exact (List.prefix_iff_eq_take.mp h).symm

end Spans

namespace Tokenizes

variable {source text : List Char} {p : Nat} {ts : List Token} {l : Lexeme}

/-- A blank adds nothing. -/
theorem blank (h : Tokenizes source p ts) {c : Char} (hc : source[p]? = some c) (hb : IsBlank c) :
    Tokenizes source (p + 1) ts := by
  refine { h with bounds := fun t ht => ?_, blanks := fun i d hi hd hout => ?_ }
  · obtain ⟨hstart, hlt, hle⟩ := h.bounds t ht
    exact ⟨hstart, hlt, by omega⟩
  · rcases Nat.lt_or_eq_of_le (Nat.le_of_lt_succ hi) with hi | rfl
    · exact h.blanks i d hi hd hout
    · obtain rfl := Option.some.inj (hc.symm.trans hd)
      exact hb

/-- The text that leads the rest adds its token. -/
theorem token (h : Tokenizes source p ts)
    (hleads : Leads text (source.drop p)) (hw : Writes l text) :
    Tokenizes source (p + text.length) (ts ++ [⟨l, ⟨p, p + text.length⟩⟩]) := by
  have htext := Span.text_eq hleads.front
  have hpos : 0 < text.length := by
    obtain ⟨c, r, rfl, -⟩ := hleads.lexical.exists_head
    exact Nat.succ_pos _
  have hforall {P : Token → Prop} (hts : ∀ t ∈ ts, P t) (hnew : P ⟨l, ⟨p, p + text.length⟩⟩) :
      ∀ t ∈ ts ++ [⟨l, ⟨p, p + text.length⟩⟩], P t := by
    rw [List.forall_mem_append, List.forall_mem_singleton]
    exact ⟨hts, hnew⟩
  constructor
  case ne_eof => exact hforall h.ne_eof hw.ne_eof
  case bounds =>
    refine hforall (fun t ht => ?_) (by simp; omega)
    obtain ⟨hstart, hlt, hle⟩ := h.bounds t ht
    exact ⟨hstart, hlt, by omega⟩
  case ordered =>
    refine List.pairwise_append.mpr ⟨h.ordered, List.pairwise_singleton _ _, fun t ht u hu => ?_⟩
    obtain rfl := List.mem_singleton.mp hu
    exact (h.bounds t ht).2.2
  case blanks =>
    intro i c hi hc hout
    rw [List.forall_mem_append, List.forall_mem_singleton] at hout
    rcases Nat.lt_or_ge i p with hip | hip
    · exact h.blanks i c hip hc hout.1
    · exact absurd ⟨by simpa using hip, by simpa using by omega⟩ hout.2
  case written => exact hforall h.written (by rw [htext]; exact hw)
  case ascii =>
    exact hforall h.ascii fun c hc => hleads.lexical.toNat_lt (by rwa [htext] at hc)
  case longest =>
    refine hforall h.longest fun k hk hle hlexical => ?_
    obtain ⟨m, rfl⟩ := Nat.exists_eq_add_of_le (show p ≤ k by simp at hk; omega)
    rw [show Span.text ⟨(p : Int), ((p + m : Nat) : Int)⟩ source = (source.drop p).take m by
      simpa using Span.text_eq_take source p m] at hlexical
    have hlength := hleads.longest _ (List.take_prefix _ _) hlexical
    rw [List.length_take, List.length_drop] at hlength
    simp at hk
    omega

end Tokenizes

/-- The tokens of a cut stand for the source up to there. -/
theorem Cut.tokenizes {source : List Char} {p : Nat} {ts : List Token} (h : Cut source p ts) :
    Tokenizes source p ts := by
  induction h with
  | start =>
    constructor
    case ordered => exact .nil
    case blanks => exact fun i _ hi => absurd hi (Nat.not_lt_zero i)
    all_goals exact fun t ht => absurd ht List.not_mem_nil
  | blank _ hc hb ih => exact ih.blank hc hb
  | token h hleads hw ih => exact ih.token hleads hw

/-- A scan cuts the whole source, or it cuts it up to where it is refused. -/
theorem scan_cut (source : String) :
    match scan source with
    | .ok ts => ∃ us, ts = us ++ [⟨.eof, ⟨source.length, source.length⟩⟩] ∧
        Cut source.toList source.length us
    | .error f => ∃ p us, Cut source.toList p us ∧ Refuses (source.toList.drop p) p f := by
  have hstart : Cut source.toList 0 [] := .start
  obtain ⟨p, us, hcut, hend⟩ := hstart.exists_furthest
  have hscan : scan source = _ := hcut.scanFrom_eq
  rcases hend with rfl | ⟨f, hrefuses, herror⟩
  · have hnil : scanFrom (source.toList.drop source.toList.length) 0 source.toList.length =
        .ok [⟨.eof, ⟨source.length, source.length⟩⟩] := by
      rw [List.drop_length, String.length_toList]
      rfl
    rw [hscan, hnil]
    exact ⟨us, rfl, String.length_toList ▸ hcut⟩
  · rw [hscan, herror]
    exact ⟨p, us, hcut, hrefuses⟩

/-- The tokens of a source but for its end are written in it. -/
theorem writes_of_scan {source : String} {ts : List Token} (h : scan source = .ok ts) :
    ∃ us, ts = us ++ [⟨.eof, ⟨source.length, source.length⟩⟩] ∧
      ∀ t ∈ us, ∃ cs, Writes t.lexeme cs := by
  have hcut := scan_cut source
  rw [h] at hcut
  obtain ⟨us, hus, hcut⟩ := hcut
  exact ⟨us, hus, fun t ht => ⟨_, hcut.tokenizes.written t ht⟩⟩

/-- What is cut off a source can be scanned. -/
theorem Cut.scan_take {source : List Char} {p : Nat} {us : List Token} (h : Cut source p us) :
    scan (String.ofList (source.take p)) = .ok (us ++ [⟨.eof, ⟨p, p⟩⟩]) := by
  have htake := (h.take (Nat.le_refl p)).scanFrom_eq
  have hnil : (source.take p).drop p = [] := by
    rw [List.drop_take, Nat.sub_self, List.take_zero]
  rw [scan, String.toList_ofList, htake, hnil]
  rfl

/-- A scan cuts the source by maximal munch. On success its tokens stand for the whole source, and
the end of the input follows them. On failure the source is refused behind the tokens of all that
precedes, and what precedes can be scanned. -/
theorem scan_tokenizes (source : String) :
    match scan source with
    | .ok ts => ∃ us, ts = us ++ [⟨.eof, ⟨source.length, source.length⟩⟩] ∧
        Tokenizes source.toList source.length us
    | .error f => ∃ (p : Nat) (us : List Token), f.span.start = p ∧
        Tokenizes source.toList p us ∧ Refuses (source.toList.drop p) p f ∧
        scan (String.ofList (source.toList.take p)) = .ok (us ++ [⟨.eof, ⟨p, p⟩⟩]) := by
  have hcut := scan_cut source
  cases hscan : scan source with
  | ok ts =>
    rw [hscan] at hcut
    obtain ⟨us, rfl, hcut⟩ := hcut
    exact ⟨us, rfl, hcut.tokenizes⟩
  | error f =>
    rw [hscan] at hcut
    obtain ⟨p, us, hcut, hrefuses⟩ := hcut
    exact ⟨p, us, by cases hrefuses <;> rfl, hcut.tokenizes, hrefuses, hcut.scan_take⟩

end Reckoner
