import Reckoner.Proofs.Comparison
import Reckoner.Proofs.Data.Figures

/-!
# Expressions are known by their text

The text of an expression names the kind of its root first, and each of its parts ends where it can
be told: a name at the quote behind it, a number at its parenthesis, an operand where its own text
ends, and arguments at a bracket that no expression begins with. So an expression can be read off
what follows its text, all but the places, if the doubles in it have texts of their own. Expressions
of sources have names without quotes, and so they compare equal exactly if their texts are one.
-/

namespace Reckoner

/-! ### Parts of a text -/

section Parts

variable {c : Char} {xs ys r r' : List Char}

/-- A part ends where a character stands first that is not in it. -/
theorem append_cons_inj (hx : c ∉ xs) (hy : c ∉ ys) (h : xs ++ c :: r = ys ++ c :: r') :
    xs = ys ∧ r = r' := by
  induction xs generalizing ys with
  | nil =>
    cases ys with
    | nil => exact ⟨rfl, (List.cons.inj h).2⟩
    | cons y ys => exact absurd ((List.cons.inj h).1 ▸ List.mem_cons_self) hy
  | cons x xs ih =>
    cases ys with
    | nil => exact absurd ((List.cons.inj h).1.symm ▸ List.mem_cons_self) hx
    | cons y ys =>
      obtain ⟨rfl, htail⟩ := List.cons.inj h
      obtain ⟨rfl, hr⟩ := ih (fun hc => hx (List.mem_cons_of_mem x hc))
        (fun hc => hy (List.mem_cons_of_mem x hc)) htail
      exact ⟨rfl, hr⟩

/-- One of several names ends at the quote behind it, if no name has a quote in it. -/
theorem name_append_inj {α : Type} {name : α → String} (hname : Function.Injective name)
    (hquote : ∀ a, '\x27' ∉ (name a).toList) {a b : α}
    (h : (name a).toList ++ '\x27' :: r = (name b).toList ++ '\x27' :: r') : a = b ∧ r = r' := by
  obtain ⟨hab, hr⟩ := append_cons_inj (hquote a) (hquote b) h
  exact ⟨hname (String.toList_injective hab), hr⟩

end Parts

theorem BinaryOp.name_injective : Function.Injective name := by
  intro o p h
  cases o <;> cases p <;> first | rfl | exact absurd h (by decide)

theorem Sign.name_injective : Function.Injective name := by
  intro s t h
  cases s <;> cases t <;> first | rfl | exact absurd h (by decide)

theorem Function.name_injective : Function.Injective Function.name := by
  intro f g h
  have hfg := Function.ofName?_name f
  rw [h, Function.ofName?_name] at hfg
  exact (Option.some.inj hfg).symm

/-- Tokens that texts tell apart: names are without quotes, doubles have texts of their own. -/
structure ToldApart (ts us : List Token) : Prop where
  /-- No name of the first tokens has a quote in it. -/
  left : ∀ n s, ⟨.identifier (some n), s⟩ ∈ ts → '\x27' ∉ n.toList
  /-- No name of the second tokens has a quote in it. -/
  right : ∀ n s, ⟨.identifier (some n), s⟩ ∈ us → '\x27' ∉ n.toList
  /-- Doubles of the two that have the same text are the same. -/
  doubles : ∀ x ∈ ts.filterMap Token.double?, ∀ y ∈ us.filterMap Token.double?,
    floatText x = floatText y → x = y

/-- Some of the tokens are told apart if all are. -/
theorem ToldApart.mono {ts us ts' us' : List Token} (h : ToldApart ts us) (ht : ts' ⊆ ts)
    (hu : us' ⊆ us) : ToldApart ts' us' where
  left n s hn := h.left n s (ht hn)
  right n s hn := h.right n s (hu hn)
  doubles x hx y hy :=
    h.doubles x (List.filterMap_subset _ ht hx) y (List.filterMap_subset _ hu hy)

/-- A value is shown as its kind and its text. -/
theorem Value.toList_shown (v : Value) (r : List Char) : v.shown.toList ++ r =
    (if v.isInteger then "Integer(" else "Float(").toList ++ (v.text.toList ++ ')' :: r) := by
  cases v <;> simp only [shown, String.toList_append, List.append_assoc] <;> rfl

/-- A value ends at the parenthesis behind it. -/
theorem Value.shown_append_inj {v w : Value} {r r' : List Char}
    (hdoubles : ∀ x y, v = float x → w = float y → floatText x = floatText y → x = y)
    (h : v.shown.toList ++ r = w.shown.toList ++ r') : v = w ∧ r = r' := by
  have hparenthesis (u : Value) : ')' ∉ u.text.toList := fun hu =>
    absurd (isFigure_of_mem_text hu) (by decide)
  have htext : v.text.toList ++ ')' :: r = w.text.toList ++ ')' :: r' := by
    rw [toList_shown, toList_shown] at h
    cases hv : v.isInteger <;> cases hw : w.isInteger <;> rw [hv, hw] at h
    · exact List.append_cancel_left h
    · exact absurd (List.head_eq_of_cons_eq h) (by decide)
    · exact absurd (List.head_eq_of_cons_eq h) (by decide)
    · exact List.append_cancel_left h
  obtain ⟨hvw, hr⟩ := append_cons_inj (hparenthesis v) (hparenthesis w) htext
  exact ⟨text_inj (String.toList_injective hvw) hdoubles, hr⟩

namespace Expr

/-! ### The text of each kind -/

theorem shownAll_eq_map (es : List Expr) : shownAll es = es.map shown := by
  induction es with
  | nil => rfl
  | cons e es ih => exact congrArg (e.shown :: ·) ih

section Shapes

variable (s : Span) (q : List Char) (op : BinaryOp) (l r : Expr) (sg : Sign) (x : Expr)
  (f : Function) (args : List Expr)

theorem shown_literal (v : Value) : (literal v s).shown = "Number(" ++ v.shown ++ ")" := rfl

theorem shown_name (n : String) : (name n s).shown = "Variable('" ++ n ++ "')" := rfl

theorem shown_binary : (binary op l r s).shown =
    "BinaryOp('" ++ op.name ++ "', " ++ l.shown ++ ", " ++ r.shown ++ ")" := rfl

theorem shown_signed : (signed sg x s).shown =
    "UnaryOp('" ++ sg.name ++ "', " ++ x.shown ++ ")" := rfl

theorem shown_call : (call f args s).shown = "FunctionCall('" ++ f.name ++ "', [" ++
    String.intercalate ", " (args.map shown) ++ "])" := by
  rw [← shownAll_eq_map]
  rfl

/-- The part that can be read next stands apart from all that is behind it. -/
theorem toList_shown_literal (v : Value) :
    (literal v s).shown.toList ++ q = "Number(".toList ++ (v.shown.toList ++ ')' :: q) := by
  simp only [shown_literal, String.toList_append, List.append_assoc]
  rfl

theorem toList_shown_name (n : String) :
    (name n s).shown.toList ++ q = "Variable('".toList ++ (n.toList ++ '\x27' :: ')' :: q) := by
  simp only [shown_name, String.toList_append, List.append_assoc]
  rfl

/-- Behind the name of the operator the operands follow, each of which is known by its text. -/
theorem toList_shown_binary :
    (binary op l r s).shown.toList ++ q = "BinaryOp('".toList ++ (op.name.toList ++ '\x27' ::
      (", ".toList ++ (l.shown.toList ++ (", ".toList ++ (r.shown.toList ++ ')' :: q))))) := by
  simp only [shown_binary, String.toList_append, List.append_assoc]
  rfl

theorem toList_shown_signed :
    (signed sg x s).shown.toList ++ q = "UnaryOp('".toList ++ (sg.name.toList ++ '\x27' ::
      (", ".toList ++ (x.shown.toList ++ ')' :: q))) := by
  simp only [shown_signed, String.toList_append, List.append_assoc]
  rfl

/-- Behind the name of the function its arguments stand between brackets. -/
theorem toList_shown_call :
    (call f args s).shown.toList ++ q = "FunctionCall('".toList ++ (f.name.toList ++ '\x27' ::
      (", [".toList ++ ((String.intercalate ", " (args.map shown)).toList ++
        ']' :: ')' :: q))) := by
  simp only [shown_call, String.toList_append, List.append_assoc]
  rfl

end Shapes

/-- The character that the text of an expression begins with. -/
def initial : Expr → Char
  | literal _ _ => 'N'
  | name _ _ => 'V'
  | binary _ _ _ _ => 'B'
  | signed _ _ _ => 'U'
  | call _ _ _ => 'F'

theorem exists_shown (e : Expr) : ∃ r, e.shown.toList = e.initial :: r := by
  rw [← List.append_nil e.shown.toList]
  cases e with
  | literal v s => exact ⟨_, toList_shown_literal s [] v⟩
  | name n s => exact ⟨_, toList_shown_name s [] n⟩
  | binary op l r s => exact ⟨_, toList_shown_binary s [] op l r⟩
  | signed sg x s => exact ⟨_, toList_shown_signed s [] sg x⟩
  | call f args s => exact ⟨_, toList_shown_call s [] f args⟩

/-- Expressions with the same text ahead are of one kind. -/
theorem initial_eq {e f : Expr} {r r' : List Char}
    (h : e.shown.toList ++ r = f.shown.toList ++ r') : e.initial = f.initial := by
  obtain ⟨t, ht⟩ := e.exists_shown
  obtain ⟨u, hu⟩ := f.exists_shown
  rw [ht, hu] at h
  exact (List.cons.inj h).1

theorem initial_ne_bracket (e : Expr) : e.initial ≠ ']' := by
  cases e <;> simp [initial]

/-! ### Reading an expression off its text -/

/-- What follows the first of several arguments up to the bracket. -/
def shownRest (es : List Expr) : List Char := es.flatMap fun e => ", ".toList ++ e.shown.toList

theorem toList_intercalate_shown (e : Expr) (es : List Expr) :
    (String.intercalate ", " ((e :: es).map shown)).toList = e.shown.toList ++ shownRest es := by
  induction es generalizing e with
  | nil => rw [List.map_singleton, String.intercalate_singleton, shownRest, List.flatMap_nil,
      List.append_nil]
  | cons f fs ih =>
    have hfs := ih f
    rw [List.map_cons] at hfs
    rw [List.map_cons, List.map_cons, String.intercalate_cons_cons, String.toList_append,
      String.toList_append, hfs, shownRest, shownRest, List.flatMap_cons, List.append_assoc,
      List.append_assoc]

section Operands

variable {es : List Expr}
  (ih : ∀ e ∈ es, ∀ (f : Expr) (r r' : List Char), ToldApart e.walk f.walk →
    e.shown.toList ++ r = f.shown.toList ++ r' → e.unplaced = f.unplaced ∧ r = r')

include ih

/-- The arguments behind the first end at the bracket. -/
private theorem shownRest_append_inj {fs : List Expr} {r r' : List Char}
    (hl : ToldApart (walkAll es) (walkAll fs))
    (h : shownRest es ++ ']' :: r = shownRest fs ++ ']' :: r') :
    es.map unplaced = fs.map unplaced ∧ r = r' := by
  induction es generalizing fs with
  | nil =>
    cases fs with
    | nil => exact ⟨rfl, (List.cons.inj h).2⟩
    | cons f fs => exact absurd (List.cons.inj h).1 (by decide)
  | cons e es ihs =>
    cases fs with
    | nil => exact absurd (List.cons.inj h).1 (by decide)
    | cons f fs =>
      rw [List.forall_mem_cons] at ih
      simp only [shownRest, List.flatMap_cons, List.append_assoc] at h
      obtain ⟨hef, hrest⟩ := ih.1 f _ _ (hl.mono (List.subset_append_left _ _)
        (List.subset_append_left _ _)) (List.append_cancel_left h)
      obtain ⟨hall, hr⟩ := ihs ih.2 (hl.mono (List.subset_append_right _ _)
        (List.subset_append_right _ _)) hrest
      exact ⟨by rw [List.map_cons, List.map_cons, hef, hall], hr⟩

/-- Arguments end at the bracket. -/
private theorem arguments_append_inj {fs : List Expr} {r r' : List Char}
    (hl : ToldApart (walkAll es) (walkAll fs))
    (h : (String.intercalate ", " (es.map shown)).toList ++ ']' :: r =
      (String.intercalate ", " (fs.map shown)).toList ++ ']' :: r') :
    es.map unplaced = fs.map unplaced ∧ r = r' := by
  have hbracket (e : Expr) (es : List Expr) (t u : List Char) :
      ']' :: t ≠ (String.intercalate ", " ((e :: es).map shown)).toList ++ u := by
    obtain ⟨v, hv⟩ := e.exists_shown
    rw [toList_intercalate_shown, hv]
    exact fun h => e.initial_ne_bracket (List.cons.inj h).1.symm
  cases es with
  | nil =>
    cases fs with
    | nil => exact ⟨rfl, (List.cons.inj h).2⟩
    | cons f fs => exact absurd h (hbracket f fs r _)
  | cons e es =>
    cases fs with
    | nil => exact absurd h.symm (hbracket e es r' _)
    | cons f fs =>
      rw [List.forall_mem_cons] at ih
      rw [toList_intercalate_shown, toList_intercalate_shown, List.append_assoc,
        List.append_assoc] at h
      obtain ⟨hef, hrest⟩ := ih.1 f _ _ (hl.mono (List.subset_append_left _ _)
        (List.subset_append_left _ _)) h
      obtain ⟨hall, hr⟩ := shownRest_append_inj ih.2 (hl.mono (List.subset_append_right _ _)
        (List.subset_append_right _ _)) hrest
      exact ⟨by rw [List.map_cons, List.map_cons, hef, hall], hr⟩

end Operands

/-- An expression is known by its text, whatever follows, all but the places. -/
theorem shown_append_inj {e f : Expr} {q q' : List Char} (hl : ToldApart e.walk f.walk)
    (h : e.shown.toList ++ q = f.shown.toList ++ q') : e.unplaced = f.unplaced ∧ q = q' := by
  induction e generalizing f q q' with
  | literal v s =>
    cases f with
    | literal w t =>
      rw [toList_shown_literal, toList_shown_literal, List.append_cancel_left_eq] at h
      have hdoubles : ∀ x y, v = .float x → w = .float y → floatText x = floatText y → x = y := by
        rintro x y rfl rfl
        exact hl.doubles x (by simp [walk, Token.double?]) y (by simp [walk, Token.double?])
      obtain ⟨rfl, hr⟩ := Value.shown_append_inj hdoubles h
      exact ⟨rfl, (List.cons.inj hr).2⟩
    | _ => exact absurd (initial_eq h) (by simp [initial])
  | name n s =>
    cases f with
    | name m t =>
      rw [toList_shown_name, toList_shown_name, List.append_cancel_left_eq] at h
      obtain ⟨hnm, hr⟩ := append_cons_inj (hl.left n s (by simp [walk]))
        (hl.right m t (by simp [walk])) h
      exact ⟨by rw [String.toList_injective hnm]; rfl, (List.cons.inj hr).2⟩
    | _ => exact absurd (initial_eq h) (by simp [initial])
  | binary o l r s ihl ihr =>
    cases f with
    | binary p l' r' t =>
      rw [toList_shown_binary, toList_shown_binary, List.append_cancel_left_eq] at h
      obtain ⟨rfl, hoperands⟩ := name_append_inj BinaryOp.name_injective
        (fun op => by cases op <;> decide) h
      obtain ⟨hleft, hrest⟩ := ihl (hl.mono (List.subset_append_left _ _)
        (List.subset_append_left _ _)) (List.append_cancel_left hoperands)
      obtain ⟨hright, hend⟩ := ihr (hl.mono (by simp [walk]) (by simp [walk]))
        (List.append_cancel_left hrest)
      refine ⟨?_, (List.cons.inj hend).2⟩
      rw [unplaced_binary, unplaced_binary, hleft, hright]
    | _ => exact absurd (initial_eq h) (by simp [initial])
  | signed sg x s ih =>
    cases f with
    | signed sg' y t =>
      rw [toList_shown_signed, toList_shown_signed, List.append_cancel_left_eq] at h
      obtain ⟨rfl, hoperand⟩ := name_append_inj Sign.name_injective
        (fun sg => by cases sg <;> decide) h
      obtain ⟨hxy, hend⟩ := ih (hl.mono (List.subset_cons_self _ _) (List.subset_cons_self _ _))
        (List.append_cancel_left hoperand)
      refine ⟨?_, (List.cons.inj hend).2⟩
      rw [unplaced_signed, unplaced_signed, hxy]
    | _ => exact absurd (initial_eq h) (by simp [initial])
  | call g as s ih =>
    cases f with
    | call g' bs t =>
      rw [toList_shown_call, toList_shown_call, List.append_cancel_left_eq] at h
      obtain ⟨rfl, hlist⟩ := name_append_inj Function.name_injective
        (fun g => by cases g <;> decide) h
      obtain ⟨hargs, hend⟩ := arguments_append_inj (fun a ha f r r' hl h => ih a ha hl h)
        (hl.mono (List.subset_cons_self _ _) (List.subset_cons_self _ _))
        (List.append_cancel_left hlist)
      refine ⟨?_, (List.cons.inj hend).2⟩
      rw [unplaced_call, unplaced_call, hargs]
    | _ => exact absurd (initial_eq h) (by simp [initial])

/-- Places have no part in the text of an expression. -/
theorem shown_unplaced (e : Expr) : e.unplaced.shown = e.shown := by
  induction e with
  | literal v s => rfl
  | name n s => rfl
  | binary op l r s ihl ihr => rw [unplaced_binary, shown_binary, ihl, ihr, shown_binary]
  | signed sg x s ih => rw [unplaced_signed, shown_signed, ih, shown_signed]
  | call f args s ih =>
    have hargs : (args.map unplaced).map shown = args.map shown := by
      rw [List.map_map]
      exact List.map_congr_left ih
    rw [unplaced_call, shown_call, hargs, shown_call]

end Expr

/-! ### Expressions of sources -/

/-- A name in a source has no quote in it. -/
theorem Writes.quote_not_mem {n : String} {cs : List Char}
    (h : Writes (.identifier (some n)) cs) : '\x27' ∉ n.toList := by
  cases h with
  | sign h => cases h
  | name h =>
    obtain ⟨c, r, rfl, hc, hr⟩ := h
    rw [String.toList_ofList, List.mem_cons, not_or]
    refine ⟨?_, fun hquote => absurd (hr _ hquote) (by decide)⟩
    rintro rfl
    exact absurd hc (by decide)

namespace Expr

variable {source source' : String} {s s' t t' : Parser.State} {e f : Expr}

/-- The nodes of expressions of sources are told apart if their doubles have texts of their own. -/
theorem toldApart_of_parseSource (he : Parser.parseSource source s = .ok e s')
    (hf : Parser.parseSource source' t = .ok f t')
    (hdoubles : ∀ x ∈ e.doubles, ∀ y ∈ f.doubles, floatText x = floatText y → x = y) :
    ToldApart e.walk f.walk where
  left _ _ hn := (writes_of_parseSource he _ hn).choose_spec.quote_not_mem
  right _ _ hn := (writes_of_parseSource hf _ hn).choose_spec.quote_not_mem
  doubles := hdoubles

/-- Expressions of two sources compare equal exactly if their texts are the same, provided that the
doubles in them have texts of their own. -/
theorem same_iff_shown_eq (he : Parser.parseSource source s = .ok e s')
    (hf : Parser.parseSource source' t = .ok f t')
    (hdoubles : ∀ x ∈ e.doubles, ∀ y ∈ f.doubles, floatText x = floatText y → x = y) :
    e.same f = true ↔ e.shown = f.shown := by
  have hmagnitude := isMagnitude_of_parseSource he
  have hmagnitude' := isMagnitude_of_parseSource hf
  constructor
  · intro h
    rw [← shown_unplaced e, ← shown_unplaced f, unplaced_eq_of_same h
      (fun x hx => (hmagnitude x hx).ne_neg_zero) fun x hx => (hmagnitude' x hx).ne_neg_zero]
  · intro h
    have htext : e.shown.toList ++ [] = f.shown.toList ++ [] := by rw [h]
    have hunplaced := (shown_append_inj (toldApart_of_parseSource he hf hdoubles) htext).1
    rw [same_congr rfl hunplaced.symm, same_iff]
    exact ⟨rfl, fun x hx => (hmagnitude x hx).isNaN⟩

/-- The logarithm of a double. -/
private theorem derives_ln (x : Float) (p q r u : Span) :
    Derives .sum [⟨.identifier (some "ln"), p⟩, ⟨.lparen, q⟩, ⟨.number (some (.float x)), r⟩,
      ⟨.rparen, u⟩] (.call .ln [.literal (.float x) r] p) 1 := by
  have hnumber : Derives .sum [⟨.number (some (.float x)), r⟩] (.literal (.float x) r) 0 :=
    .product (.signed (.power (.primary (.number rfl))))
  have hopen : Derives .openCall [⟨.identifier (some "ln"), p⟩, ⟨.lparen, q⟩,
      ⟨.number (some (.float x)), r⟩] (.call .ln [.literal (.float x) r] p) 1 :=
    .argument (f := .ln) rfl rfl hnumber
  have hcall := Derives.call (show (⟨.rparen, u⟩ : Token).lexeme = .rparen from rfl) hopen
  exact .product (.signed (.power (.primary hcall)))

/-- The expressions of `ln(0.5)` and `ln( .50)` have the same text, and they compare equal. -/
theorem same_of_shown_eq_ln : ∃ e f s t,
    Parser.parseSource "ln(0.5)" (.initial .empty 1) = .ok e s ∧
    Parser.parseSource "ln( .50)" (.initial .empty 1) = .ok f t ∧
    e.shown = "FunctionCall('ln', [Number(Float(0.5))])" ∧ e.shown = f.shown ∧
    e.same f = true := by
  have hscan : scan "ln(0.5)" = .ok [⟨.identifier (some "ln"), ⟨0, 2⟩⟩, ⟨.lparen, ⟨2, 3⟩⟩,
      ⟨.number (some (.float 0.5)), ⟨3, 6⟩⟩, ⟨.rparen, ⟨6, 7⟩⟩, ⟨.eof, ⟨7, 7⟩⟩] := by
    decide +kernel
  have hscan' : scan "ln( .50)" = .ok [⟨.identifier (some "ln"), ⟨0, 2⟩⟩, ⟨.lparen, ⟨2, 3⟩⟩,
      ⟨.number (some (.float 0.5)), ⟨4, 7⟩⟩, ⟨.rparen, ⟨7, 8⟩⟩, ⟨.eof, ⟨8, 8⟩⟩] := by
    decide +kernel
  have he := (Parser.parseSource_of_ok hscan _).trans (Parser.parse_of_derives
    (e := ⟨.eof, ⟨7, 7⟩⟩) rfl (s := .initial .empty 1) rfl
    (derives_ln 0.5 ⟨0, 2⟩ ⟨2, 3⟩ ⟨3, 6⟩ ⟨6, 7⟩) (by decide))
  have hf := (Parser.parseSource_of_ok hscan' _).trans (Parser.parse_of_derives
    (e := ⟨.eof, ⟨8, 8⟩⟩) rfl (s := .initial .empty 1) rfl
    (derives_ln 0.5 ⟨0, 2⟩ ⟨2, 3⟩ ⟨4, 7⟩ ⟨7, 8⟩) (by decide))
  refine ⟨_, _, _, _, he, hf, by decide +kernel, rfl, ?_⟩
  refine (same_iff_shown_eq he hf ?_).mpr rfl
  intro x hx y hy _
  rw [show x = 0.5 by simpa using hx, show y = 0.5 by simpa using hy]

end Expr

end Reckoner
