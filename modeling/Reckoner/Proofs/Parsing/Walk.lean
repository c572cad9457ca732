import Reckoner.Proofs.Parsing.Acceptance
import Reckoner.Proofs.Parsing.Reruns

/-!
# Walking through an expression

A walk visits the nodes of an expression in the order of its text: an operator between its operands,
a sign before its operand, the name of a function before its arguments. What it visits are the
tokens that the nodes stand for. The walk through a parsed expression visits the tokens that it was
parsed from, all of them and in their order, but for the punctuation.
-/

namespace Reckoner

/-- The lexeme of an operator. -/
def BinaryOp.lexeme : BinaryOp → Lexeme
  | add => .plus
  | sub => .minus
  | mul => .times
  | div => .divide
  | mod => .modulo
  | pow => .power

/-- The lexeme of a sign. -/
def Sign.lexeme : Sign → Lexeme
  | pos => .plus
  | neg => .minus

/-- A parenthesis or a comma, for which there is no node. -/
def Token.isPunctuation (t : Token) : Bool :=
  t.lexeme = .lparen || t.lexeme = .rparen || t.lexeme = .comma

/-- The tokens of a sequence that are no punctuation, in their order. -/
def withoutPunctuation (ts : List Token) : List Token := ts.filter fun t => !t.isPunctuation

theorem withoutPunctuation_append (ts us : List Token) :
    withoutPunctuation (ts ++ us) = withoutPunctuation ts ++ withoutPunctuation us :=
  List.filter_append ts us

/-- Punctuation is left out. -/
theorem withoutPunctuation_cons {o : Token} (h : o.isPunctuation = true) (ts : List Token) :
    withoutPunctuation (o :: ts) = withoutPunctuation ts := by
  simp [withoutPunctuation, h]

/-- Any other token stays. -/
theorem withoutPunctuation_cons_of_lexeme {o : Token} {l : Lexeme} (ho : o.lexeme = l)
    (hl : Token.isPunctuation ⟨l, o.span⟩ = false) (ts : List Token) :
    withoutPunctuation (o :: ts) = ⟨l, o.span⟩ :: withoutPunctuation ts := by
  subst ho
  simp [withoutPunctuation, hl]

namespace Expr

mutual

/-- The tokens of the nodes of an expression, in the order of its text. -/
def walk : Expr → List Token
  | literal v s => [⟨.number (some v), s⟩]
  | name n s => [⟨.identifier (some n), s⟩]
  | binary op l r s => l.walk ++ ⟨op.lexeme, s⟩ :: r.walk
  | signed sg x s => ⟨sg.lexeme, s⟩ :: x.walk
  | call f args s => ⟨.identifier (some f.name), s⟩ :: walkAll args

/-- The tokens of the nodes of several expressions. -/
def walkAll : List Expr → List Token
  | [] => []
  | e :: es => e.walk ++ walkAll es

end

theorem walkAll_append (as bs : List Expr) : walkAll (as ++ bs) = walkAll as ++ walkAll bs := by
  induction as with
  | nil => rfl
  | cons a as ih => simp [walkAll, ih]

end Expr

/-- The lexeme of an operator or a sign is no punctuation. -/
theorem BinaryOp.isPunctuation_lexeme (op : BinaryOp) (s : Span) :
    Token.isPunctuation ⟨op.lexeme, s⟩ = false := by
  cases op <;> rfl

theorem Sign.isPunctuation_lexeme (sg : Sign) (s : Span) :
    Token.isPunctuation ⟨sg.lexeme, s⟩ = false := by
  cases sg <;> rfl

/-- An operator stands between what its operands are derived from. -/
private theorem walk_binary {ts us : List Token} {l r : Expr} {o : Token} {op : BinaryOp}
    (ho : o.lexeme = op.lexeme) (hl : l.walk = withoutPunctuation ts)
    (hr : r.walk = withoutPunctuation us) :
    (Expr.binary op l r o.span).walk = withoutPunctuation (ts ++ o :: us) := by
  rw [Expr.walk, withoutPunctuation_append, withoutPunctuation_cons_of_lexeme ho
    (op.isPunctuation_lexeme _), hl, hr]

/-- The walk through a derived expression visits what it is derived from without punctuation. -/
theorem Derives.walk_eq {l : Level} {ts : List Token} {t : Expr} {d : Nat} (h : Derives l ts t d) :
    t.walk = withoutPunctuation ts := by
  induction h with
  | product _ ih | signed _ ih | power _ ih | primary _ ih => exact ih
  | addSub ho _ _ ihl ihr =>
    refine walk_binary ?_ ihl ihr
    rcases ho with ⟨ho, rfl⟩ | ⟨ho, rfl⟩ <;> exact ho
  | mulDiv ho _ _ ihl ihr =>
    refine walk_binary ?_ ihl ihr
    rcases ho with ⟨ho, rfl⟩ | ⟨ho, rfl⟩ | ⟨ho, rfl⟩ <;> exact ho
  | raise ho _ _ ihb ihx => exact walk_binary ho ihb ihx
  | @sign _ _ _ o sg ho _ ih =>
    have ho' : o.lexeme = sg.lexeme := by rcases ho with ⟨ho, rfl⟩ | ⟨ho, rfl⟩ <;> exact ho
    rw [Expr.walk, withoutPunctuation_cons_of_lexeme ho' (sg.isPunctuation_lexeme _), ih]
  | number ht | name ht =>
    rw [Expr.walk, withoutPunctuation_cons_of_lexeme ht rfl]
    rfl
  | group hlp hrp _ ih =>
    rw [List.cons_append, withoutPunctuation_cons (by simp [Token.isPunctuation, hlp]),
      withoutPunctuation_append, withoutPunctuation_cons (by simp [Token.isPunctuation, hrp]), ih]
    exact (List.append_nil _).symm
  | callEmpty hn hlp hrp =>
    rw [Expr.walk, withoutPunctuation_cons_of_lexeme hn rfl,
      withoutPunctuation_cons (by simp [Token.isPunctuation, hlp]),
      withoutPunctuation_cons (by simp [Token.isPunctuation, hrp])]
    rfl
  | call hrp _ ih =>
    rw [withoutPunctuation_append, withoutPunctuation_cons (by simp [Token.isPunctuation, hrp]), ih]
    exact (List.append_nil _).symm
  | argument hn hlp _ ih =>
    rw [Expr.walk, withoutPunctuation_cons_of_lexeme hn rfl,
      withoutPunctuation_cons (by simp [Token.isPunctuation, hlp]), ← ih, Expr.walkAll,
      Expr.walkAll, List.append_nil]
  | comma hc _ _ ih iht =>
    rw [withoutPunctuation_append, withoutPunctuation_cons (by simp [Token.isPunctuation, hc]),
      ← ih, ← iht]
    simp [Expr.walk, Expr.walkAll_append, Expr.walkAll]

/-- Filling in what tokens lack leaves punctuation what it is. -/
theorem withoutPunctuation_map_completed (ts : List Token) :
    withoutPunctuation (ts.map Token.completed) = (withoutPunctuation ts).map Token.completed := by
  have h : (fun t : Token => !t.isPunctuation) ∘ Token.completed = fun t => !t.isPunctuation := by
    funext t
    exact Parser.completes_completed.congr
      (fun l => !(l = .lparen || l = .rparen || l = .comma : Bool)) (fun _ => rfl) rfl t
  rw [withoutPunctuation, List.filter_map, h, withoutPunctuation]

namespace Parser

/-- Tokens in which all is filled in are legible, wherever they end the input. -/
private theorem legible_completed {ts : List Token} {e : Token} (he : e.lexeme = .eof) {s : State}
    (hlimit : 0 ≤ s.limit) : Legible (s.loaded (ts.map Token.completed ++ [e])) := by
  refine ⟨?_, fun t ht => ?_, hlimit⟩
  · rw [State.Ready, State.rest_loaded]
    exact isTerminated_append_singleton _ he
  · rw [State.rest_loaded, ← map_completed_append he] at ht
    obtain ⟨u, -, rfl⟩ := List.mem_map.mp ht
    exact u.lexeme_completed_ne

/-- Whatever is parsed can be derived, with a nesting within the limit, from tokens up to an end of
the input, with all filled in that they lack. -/
theorem exists_derives_up_to {ts : List Token} {s s' : State} {t : Expr}
    (h : parse ts s = .ok t s') :
    ∃ us e r d, ts.map Token.completed = us ++ e :: r ∧ e.lexeme = .eof ∧ Derives .sum us t d ∧
      (d : Int) ≤ max s.limit 0 := by
  have hts : isTerminated ts = true := by
    by_contra hts
    rw [parse_unterminated (Bool.eq_false_iff.mpr hts)] at h
    cases h
  obtain ⟨us, e, rfl⟩ := (List.eq_nil_or_concat' ts).resolve_left (isTerminated_ne_nil hts)
  have he : e.lexeme = .eof := by simpa [isTerminated] using hts
  -- Names that lack their text are read as those that have it, and those can be derived.
  obtain ⟨s₂, h₂⟩ := parse_completed he h 0
  obtain ⟨hread, e₂, r, hr, he₂⟩ := parse_eq_ok (isTerminated_append_singleton _ he) h₂
  obtain ⟨vs, d, hconsumes, hd, hle⟩ :=
    Rule.sum.sound _ (legible_completed he (Int.le_max_right _ _)) hread
  have hrest := hconsumes.rest_eq
  rw [State.rest_loaded, ← map_completed_append he, hr] at hrest
  exact ⟨vs, e₂, r, d, hrest, he₂, hd, (Int.zero_add (d : Int)).symm.trans_le hle⟩

/-- Whatever is parsed can be derived, with a nesting within the limit, from tokens at the front of
the sequence with all filled in that they lack. -/
theorem exists_derives_completed {ts : List Token} {s s' : State} {t : Expr}
    (h : parse ts s = .ok t s') :
    ∃ us d, us <+: ts.map Token.completed ∧ Derives .sum us t d ∧ (d : Int) ≤ max s.limit 0 := by
  obtain ⟨us, e, r, d, heq, -, hd, hle⟩ := exists_derives_up_to h
  exact ⟨us, d, ⟨_, heq.symm⟩, hd, hle⟩

/-- The nodes of a parsed expression stand for tokens of the sequence. -/
theorem mem_of_mem_walk {ts : List Token} {s s' : State} {t : Expr} (h : parse ts s = .ok t s')
    {u : Token} (hu : u ∈ t.walk) : u ∈ ts.map Token.completed := by
  obtain ⟨us, d, hprefix, hd, -⟩ := exists_derives_completed h
  rw [hd.walk_eq] at hu
  exact hprefix.mem (List.mem_of_mem_filter hu)

/-- What is parsed can be derived from the same tokens with all filled in that they lack. -/
theorem derives_of_parse_eq_ok {ts : List Token} {e : Token} (hts : ∀ t ∈ ts, t.lexeme ≠ .eof)
    (he : e.lexeme = .eof) {s s' : State} {t : Expr} (h : parse (ts ++ [e]) s = .ok t s') :
    ∃ d, Derives .sum (ts.map Token.completed) t d := by
  obtain ⟨s₂, h₂⟩ := parse_completed he h 0
  have hcomplete := Token.isComplete_of_mem_map hts
  obtain ⟨d, hd, -⟩ := derives_of_parse hcomplete he (Int.le_max_right _ _) h₂
  exact ⟨d, hd⟩

/-- The walk through a parsed expression visits the tokens that it was parsed from without
punctuation, each once and in their order; a name that lacks its text is the one that is shown
for it. -/
theorem walk_eq_of_parse {ts : List Token} {e : Token} (hts : ∀ t ∈ ts, t.lexeme ≠ .eof)
    (he : e.lexeme = .eof) {s s' : State} {t : Expr} (h : parse (ts ++ [e]) s = .ok t s') :
    t.walk = (withoutPunctuation ts).map Token.completed := by
  obtain ⟨d, hd⟩ := derives_of_parse_eq_ok hts he h
  rw [hd.walk_eq, withoutPunctuation_map_completed]

/-- The tokens of `abs(x, -y)` up to the closing parenthesis. -/
private def openCallOfTwo : List Token :=
  [⟨.identifier (some "abs"), ⟨0, 3⟩⟩, ⟨.lparen, ⟨3, 4⟩⟩, ⟨.identifier (some "x"), ⟨4, 5⟩⟩,
    ⟨.comma, ⟨5, 6⟩⟩, ⟨.minus, ⟨7, 8⟩⟩, ⟨.identifier (some "y"), ⟨8, 9⟩⟩]

/-- The walk through `abs(x, -y)` visits the function, the first name, the sign and the second. -/
theorem walk_callOfTwo : ∃ t s', parse (openCallOfTwo ++ [⟨.rparen, ⟨9, 10⟩⟩] ++ [⟨.eof, ⟨10, 10⟩⟩])
      (.initial .empty 2) = .ok t s' ∧
    t.walk = [⟨.identifier (some "abs"), ⟨0, 3⟩⟩, ⟨.identifier (some "x"), ⟨4, 5⟩⟩,
      ⟨.minus, ⟨7, 8⟩⟩, ⟨.identifier (some "y"), ⟨8, 9⟩⟩] := by
  have hx : Derives .sum [⟨.identifier (some "x"), ⟨4, 5⟩⟩] (.name "x" ⟨4, 5⟩) 0 :=
    .product (.signed (.power (.primary (.name rfl))))
  have hminus : Derives .signed [⟨.minus, ⟨7, 8⟩⟩, ⟨.identifier (some "y"), ⟨8, 9⟩⟩]
      (.signed .neg (.name "y" ⟨8, 9⟩) ⟨7, 8⟩) 1 :=
    .sign (.inr ⟨rfl, rfl⟩) (.power (.primary (.name rfl)))
  have hopen : Derives .openCall openCallOfTwo _ 2 :=
    .comma (c := ⟨.comma, ⟨5, 6⟩⟩) rfl (.argument (f := .abs) rfl rfl hx)
      (.product (.signed hminus))
  have hcall : Derives .primary (openCallOfTwo ++ [⟨.rparen, ⟨9, 10⟩⟩]) _ 2 := .call rfl hopen
  have h := parse_of_derives (e := ⟨.eof, ⟨10, 10⟩⟩) rfl (s := .initial .empty 2) rfl
    (.product (.signed (.power (.primary hcall)))) (by decide)
  exact ⟨_, _, h, walk_eq_of_parse (by decide) rfl h⟩

end Parser

end Reckoner
