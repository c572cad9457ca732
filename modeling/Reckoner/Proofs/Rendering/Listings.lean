import Reckoner.Proofs.Comparison
import Reckoner.Proofs.Data.Figures
import Reckoner.Proofs.Rendering.Drawing
import Reckoner.Proofs.Spacing

/-!
# A token listing loses places only

A line of a listing shows the kind of its token up to a parenthesis and then what the token carries,
and the lines are joined by line feeds, which no line has in it. So the tokens can be read off their
listing, all but the places, if their doubles have texts of their own. Places are only handed on by
the parser and the evaluator, so that sources with one listing have one value, or one cause of a
fault.
-/

namespace Reckoner

namespace Lexeme

variable {l m : Lexeme}

/-- The kind of a lexeme is what is displayed before a parenthesis. -/
theorem takeWhile_display (l : Lexeme) :
    l.display.toList.takeWhile (· != '(') = l.kindName.toList := by
  cases l <;> simp [display, kindName]

/-- Lexemes that are displayed alike are of one kind. -/
theorem kindName_eq_of_display_eq (h : l.display = m.display) : l.kindName = m.kindName := by
  rw [← String.toList_inj, ← takeWhile_display, ← takeWhile_display, h]

/-- No value is displayed as a number that has none. -/
private theorem text_ne_none (v : Value) : v.text ≠ "None" := by
  intro h
  have hletter : 'N' ∈ v.text.toList := by
    rw [h]
    decide
  exact absurd (Value.isFigure_of_mem_text hletter) (by decide)

/-- Numbers that are displayed alike are the same, if their doubles have texts of their own. -/
private theorem number_display_inj {v w : Option Value}
    (hdoubles : ∀ x y, v = some (.float x) → w = some (.float y) →
      floatText x = floatText y → x = y)
    (h : (number v).display = (number w).display) : v = w := by
  have htext : v.elim "None" Value.text = w.elim "None" Value.text := by
    simpa [display, String.append_assoc] using h
  cases v with
  | none =>
    cases w with
    | none => rfl
    | some w => exact absurd htext.symm (text_ne_none w)
  | some v =>
    cases w with
    | none => exact absurd htext (text_ne_none v)
    | some w =>
      refine congrArg some (Value.text_inj htext ?_)
      rintro x y rfl rfl
      exact hdoubles x y rfl rfl

/-- Lexemes that are displayed alike are the same, if the names among them have their texts and the
doubles have texts of their own. -/
theorem display_inj (hl : l ≠ .identifier none) (hm : m ≠ .identifier none)
    (hdoubles : ∀ x y, l = .number (some (.float x)) → m = .number (some (.float y)) →
      floatText x = floatText y → x = y)
    (h : l.display = m.display) : l = m := by
  have hkind := kindName_eq_of_display_eq h
  cases l with
  | number v =>
    cases m with
    | number w =>
      refine congrArg number (number_display_inj ?_ h)
      rintro x y rfl rfl
      exact hdoubles x y rfl rfl
    | _ => exact absurd hkind (by simp [kindName])
  | identifier n =>
    cases m with
    | identifier k =>
      obtain ⟨n, rfl⟩ := Option.ne_none_iff_exists'.mp fun hn => hl (congrArg identifier hn)
      obtain ⟨k, rfl⟩ := Option.ne_none_iff_exists'.mp fun hk => hm (congrArg identifier hk)
      simpa [display] using h
    | _ => exact absurd hkind (by simp [kindName])
  | _ => cases m <;> first | rfl | exact absurd hkind (by simp [kindName])

/-- The line of a lexeme in a listing is on one row. -/
theorem IsInRow.isRow_display (h : l.IsInRow) : IsRow l.display := by
  by_cases heof : l = .eof
  · subst heof
    decide
  · rw [← describe_of_ne_eof heof]
    exact h.isRow_describe

end Lexeme

/-! ### Listings -/

section Listings

variable {ts us : List Token}

/-- What is told by one reading of each item is told by it of the whole list. -/
private theorem map_eq_of_map_eq {α β γ : Type} {f : α → β} {g : α → γ} {xs ys : List α}
    (hfg : ∀ x ∈ xs, ∀ y ∈ ys, f x = f y → g x = g y) (h : xs.map f = ys.map f) :
    xs.map g = ys.map g := by
  induction xs generalizing ys with
  | nil =>
    obtain rfl := List.map_eq_nil_iff.mp h.symm
    rfl
  | cons x xs ih =>
    cases ys with
    | nil => cases h
    | cons y ys =>
      obtain ⟨hhead, htail⟩ := List.cons.inj h
      rw [List.map_cons, List.map_cons, hfg x List.mem_cons_self y List.mem_cons_self hhead,
        ih (fun a ha b hb => hfg a (List.mem_cons_of_mem x ha) b (List.mem_cons_of_mem y hb)) htail]

/-- Tokens with one listing are the same but for their places, if the names among them have their
texts, each on one row, and the doubles have texts of their own. -/
theorem map_lexeme_eq_of_listing_eq (hts : ts ≠ []) (hus : us ≠ [])
    (hnames : ∀ t ∈ ts, t.lexeme ≠ .identifier none ∧ t.lexeme.IsInRow)
    (hnames' : ∀ u ∈ us, u.lexeme ≠ .identifier none ∧ u.lexeme.IsInRow)
    (hdoubles : ∀ x ∈ ts.filterMap Token.double?, ∀ y ∈ us.filterMap Token.double?,
      floatText x = floatText y → x = y)
    (h : Token.listing ts = Token.listing us) : ts.map Token.lexeme = us.map Token.lexeme := by
  have hrows {vs : List Token} (hne : vs ≠ []) (hvs : ∀ t ∈ vs, t.lexeme.IsInRow) :
      rows (Token.listing vs).toList =
        (vs.map fun t => t.lexeme.display).map String.toList := by
    refine rows_intercalate (by simpa using hne) (List.forall_mem_map.mpr fun t ht => ?_)
    exact (hvs t ht).isRow_display
  have hlines : (ts.map fun t => t.lexeme.display) = us.map fun u => u.lexeme.display := by
    refine (List.map_injective_iff.mpr fun _ _ => String.toList_injective) ?_
    rw [← hrows hts fun t ht => (hnames t ht).2, ← hrows hus fun u hu => (hnames' u hu).2, h]
  refine map_eq_of_map_eq (fun t ht u hu hdisplay => ?_) hlines
  refine Lexeme.display_inj (hnames t ht).1 (hnames' u hu).1 (fun x y hx hy => ?_) hdisplay
  exact hdoubles x (List.mem_filterMap.mpr ⟨t, ht, by rw [Token.double?, hx]⟩) y
    (List.mem_filterMap.mpr ⟨u, hu, by rw [Token.double?, hy]⟩)

end Listings

section Sources

variable {source source' : String} {ts us : List Token}

/-- The tokens of a source end with its end, and its names have their texts, each on one row. -/
theorem names_of_scan (h : scan source = .ok ts) :
    ts ≠ [] ∧ ∀ t ∈ ts, t.lexeme ≠ .identifier none ∧ t.lexeme.IsInRow := by
  obtain ⟨us, rfl, hus⟩ := writes_of_scan h
  refine ⟨by simp, ?_⟩
  rw [List.forall_mem_append, List.forall_mem_singleton]
  refine ⟨fun t ht => ?_, nofun, nofun⟩
  obtain ⟨cs, hcs⟩ := hus t ht
  exact ⟨hcs.isComplete.2.2, hcs.isInRow⟩

/-- Sources with the same tokens at any places have the same value, or faults for the same
cause. -/
theorem calculate_of_map_lexeme_eq (ha : scan source = .ok ts) (hb : scan source' = .ok us)
    (h : ts.map Token.lexeme = us.map Token.lexeme) (ops : FloatOps) (options : Options) :
    (∃ v, (calculate ops options source).result = .ok v ∧
        (calculate ops options source').result = .ok v) ∨
      ∃ p q, (calculate ops options source).result = .error (.fault p) ∧
        (calculate ops options source').result = .error (.fault q) ∧ p.cause = q.cause := by
  -- all spans are placed at one place, so that nothing is left but the lexemes
  let place : Span → Span := fun _ => default
  have htokens : ts.map (Token.relocate place) = us.map (Token.relocate place) :=
    map_eq_of_map_eq (fun t _ u _ htu => by rw [Token.relocate, Token.relocate, htu]) h
  have hresult : (calculate ops options source).result.mapError (Stop.relocate place) =
      (calculate ops options source').result.mapError (Stop.relocate place) := by
    rw [mapError_result_calculate place ha, mapError_result_calculate place hb, htokens]
  rcases of_mapError_eq _ hresult with hvalue | ⟨p, q, hp, hq, hpq⟩
  · exact .inl hvalue
  · rcases calculate_result ops options source with ⟨v, hv⟩ | ⟨f, hf⟩
    · rw [hv] at hp
      cases hp
    · rcases calculate_result ops options source' with ⟨v, hv⟩ | ⟨g, hg⟩
      · rw [hv] at hq
        cases hq
      · rw [hf] at hp
        rw [hg] at hq
        cases hp
        cases hq
        exact .inr ⟨f, g, hf, hg, (Fault.mk.inj (Stop.fault.inj hpq)).1⟩

/-- Sources with one token listing have the same tokens but for their places: as many, and each of
the same kind with the same value or name. They have the same value, or faults for the same cause.
The doubles of the sources must have texts of their own. -/
theorem calculate_of_listing_eq (ha : scan source = .ok ts) (hb : scan source' = .ok us)
    (hdoubles : ∀ x ∈ ts.filterMap Token.double?, ∀ y ∈ us.filterMap Token.double?,
      floatText x = floatText y → x = y)
    (h : Token.listing ts = Token.listing us) :
    ts.map Token.lexeme = us.map Token.lexeme ∧
    ∀ (ops : FloatOps) (options : Options),
      (∃ v, (calculate ops options source).result = .ok v ∧
        (calculate ops options source').result = .ok v) ∨
      ∃ p q, (calculate ops options source).result = .error (.fault p) ∧
        (calculate ops options source').result = .error (.fault q) ∧ p.cause = q.cause := by
  obtain ⟨hne, hnames⟩ := names_of_scan ha
  obtain ⟨hne', hnames'⟩ := names_of_scan hb
  have hlexemes := map_lexeme_eq_of_listing_eq hne hne' hnames hnames' hdoubles h
  exact ⟨hlexemes, calculate_of_map_lexeme_eq ha hb hlexemes⟩

/-- In `2.0 x` and in `2. x` the same name follows a complete expression. -/
theorem calculate_of_listing_eq_trailing :
    (calculate .machine .default "2.0 x").result =
      .error (.fault ⟨.trailingInput (.identifier (some "x")), ⟨4, 5⟩⟩) ∧
    ∃ s, (calculate .machine .default "2. x").result =
      .error (.fault ⟨.trailingInput (.identifier (some "x")), s⟩) := by
  have hscan : scan "2.0 x" = .ok [⟨.number (some (.float 2)), ⟨0, 3⟩⟩,
      ⟨.identifier (some "x"), ⟨4, 5⟩⟩, ⟨.eof, ⟨5, 5⟩⟩] := by decide +kernel
  have hscan' : scan "2. x" = .ok [⟨.number (some (.float 2)), ⟨0, 2⟩⟩,
      ⟨.identifier (some "x"), ⟨3, 4⟩⟩, ⟨.eof, ⟨4, 4⟩⟩] := by decide +kernel
  have hresult : (calculate .machine .default "2.0 x").result =
      .error (.fault ⟨.trailingInput (.identifier (some "x")), ⟨4, 5⟩⟩) := by decide +kernel
  have hdoubles : ∀ x ∈ [(2 : Float)], ∀ y ∈ [(2 : Float)], floatText x = floatText y → x = y := by
    intro x hx y hy _
    rw [List.mem_singleton.mp hx, List.mem_singleton.mp hy]
  refine ⟨hresult, ?_⟩
  rcases (calculate_of_listing_eq hscan hscan' hdoubles rfl).2 .machine .default with
    ⟨v, hv, -⟩ | ⟨p, ⟨c, s⟩, hp, hq, hc⟩
  · rw [hresult] at hv
    cases hv
  · rw [hresult] at hp
    cases hp
    obtain rfl : _ = c := hc
    exact ⟨s, hq⟩

end Sources

end Reckoner
