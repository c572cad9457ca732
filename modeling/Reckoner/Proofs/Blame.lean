import Reckoner.Calculation
import Reckoner.Proofs.Evaluation.Recursion
import Reckoner.Proofs.Parsing.FirstFault
import Reckoner.Proofs.Scanning.Tokenization

/-!
# What a fault blames

Every fault of a calculation stands at the part of the source that is to blame. A fault of scanning
stands at the character or the literal that it mentions, a syntax fault at a token that it names the
kind of, and a fault of evaluation at the operator, the sign or the name of the node that was being
evaluated. The span of a node is that of a token, and a token is written as the text that it covers.
-/

namespace Reckoner

/-- The text that a cause blames, unless it is found at a token. -/
inductive Cause.Blames : Cause → List Char → Prop where
  /-- The character that starts no token. -/
  | character (c : Char) : Blames (.invalidCharacter (String.singleton c)) [c]
  /-- The literal that does not fit. -/
  | literal (cs : List Char) (reason : String) :
      Blames (.invalidNumber (String.ofList cs) reason) cs
  /-- The sign of a quotient. -/
  | quotient : Blames .divisionByZero ['/']
  /-- The sign of a remainder. -/
  | remainder : Blames .divisionByZero ['%']
  /-- The sign of a remainder of doubles. -/
  | floatModulo : Blames .floatModulo ['%']
  /-- The sign of a sum. -/
  | addition : Blames (.overflow "addition") ['+']
  /-- The sign of a difference. -/
  | subtraction : Blames (.overflow "subtraction") ['-']
  /-- The sign of a product. -/
  | multiplication : Blames (.overflow "multiplication") ['*']
  /-- The sign before an operand. -/
  | negation : Blames (.overflow "negation") ['-']
  /-- The name of the magnitude. -/
  | magnitude : Blames (.overflow "abs") ['a', 'b', 's']
  /-- The name of the function that is called outside its domain. -/
  | argument (name : String) (x : Scalar) (requirement : String) :
      Blames (.invalidArgument name x requirement) name.toList
  /-- The name of the function that is called with another number of arguments. -/
  | argumentCount (name : String) (expected got : Int) :
      Blames (.wrongArgumentCount name expected got) name.toList
  /-- The name that has no value. -/
  | unknownName (name : String) : Blames (.unknownVariable name) name.toList

/-- A sign is written in one way. -/
theorem Writes.eq_sign {l : Lexeme} {c : Char} {cs : List Char} (h : Writes l cs)
    (hl : l.sign? = some c) : cs = [c] := by
  cases h with
  | sign h =>
    rw [hl] at h
    rw [Option.some.inj h]
  | _ => cases hl

/-- A name is written as it is. -/
theorem Writes.eq_name {n : String} {cs : List Char} (h : Writes (.identifier (some n)) cs) :
    cs = n.toList := by
  cases h with
  | sign h => cases h
  | name h => exact String.toList_ofList.symm

/-- A fault blames a token: it has its span, and its cause blames what the token is written as. -/
def Fault.BlamesToken (f : Fault) (t : Token) : Prop :=
  t.span = f.span ∧ ∀ cs, Writes t.lexeme cs → f.cause.Blames cs

section Nodes

variable {ops : FloatOps} {f : Fault} {s : Span}

theorem checkedInteger_eq_error {n : Int} {operation : String}
    (h : checkedInteger n operation s = .error f) : f = ⟨.overflow operation, s⟩ := by
  unfold checkedInteger at h
  split at h
  · cases h
  · exact (Except.error.inj h).symm

theorem arithmetic_eq_error {onInts : Int → Int → Int} {onFloats : Float → Float → Float}
    {operation : String} {v w : Value}
    (h : arithmetic ops onInts onFloats operation s v w = .error f) :
    f = ⟨.overflow operation, s⟩ := by
  unfold arithmetic at h
  split at h
  · exact checkedInteger_eq_error h
  · cases h

/-- A fault of an operator blames its sign. -/
theorem BinaryOp.blamesToken_of_apply {op : BinaryOp} {v w : Value}
    (h : op.apply ops s v w = .error f) : f.BlamesToken ⟨op.lexeme, s⟩ := by
  cases op with
  | add =>
    obtain rfl := arithmetic_eq_error h
    exact ⟨rfl, fun cs hcs => hcs.eq_sign rfl ▸ .addition⟩
  | sub =>
    obtain rfl := arithmetic_eq_error h
    exact ⟨rfl, fun cs hcs => hcs.eq_sign rfl ▸ .subtraction⟩
  | mul =>
    obtain rfl := arithmetic_eq_error h
    exact ⟨rfl, fun cs hcs => hcs.eq_sign rfl ▸ .multiplication⟩
  | div =>
    simp only [apply, quotient] at h
    split at h
    · cases h
      exact ⟨rfl, fun cs hcs => hcs.eq_sign rfl ▸ .quotient⟩
    · cases h
  | mod =>
    simp only [apply] at h
    unfold remainder at h
    split at h
    · split at h
      · cases h
        exact ⟨rfl, fun cs hcs => hcs.eq_sign rfl ▸ .remainder⟩
      · cases h
    · cases h
      exact ⟨rfl, fun cs hcs => hcs.eq_sign rfl ▸ .floatModulo⟩
  | pow => cases h

/-- A fault of a sign blames it. -/
theorem Sign.blamesToken_of_apply {sg : Sign} {v : Value} (h : sg.apply ops s v = .error f) :
    f.BlamesToken ⟨sg.lexeme, s⟩ := by
  unfold apply at h
  split at h
  · cases h
  · obtain rfl := checkedInteger_eq_error h
    exact ⟨rfl, fun cs hcs => hcs.eq_sign rfl ▸ .negation⟩
  · cases h

/-- A fault of a function blames its name. -/
theorem Function.blamesToken_of_apply {g : Function} {vs : List Value}
    (h : g.apply ops s vs = .error f) : f.BlamesToken ⟨.identifier (some g.name), s⟩ := by
  unfold apply at h
  split at h
  · cases h
    exact ⟨rfl, fun cs hcs => hcs.eq_name ▸ .argumentCount _ _ _⟩
  · split at h
    · rename_i hkeeps _
      obtain rfl := checkedInteger_eq_error h
      obtain rfl : g = .abs := by cases g <;> first | rfl | cases hkeeps
      exact ⟨rfl, fun cs hcs => hcs.eq_name ▸ .magnitude⟩
    · unfold applyFloats at h
      split at h
      · cases h
        exact ⟨rfl, fun cs hcs => hcs.eq_name ▸ .argument _ _ _⟩
      · split at h
        · cases h
        · cases h
          exact ⟨rfl, fun cs hcs => hcs.eq_name ▸ .argumentCount _ _ _⟩

theorem blamesToken_of_nameValue {n : String} (h : nameValue n s = .error f) :
    f.BlamesToken ⟨.identifier (some n), s⟩ := by
  unfold nameValue at h
  split at h
  · cases h
  · cases h
    exact ⟨rfl, fun cs hcs => hcs.eq_name ▸ .unknownName _⟩

/-- Of two steps in a row the first one fails, or the second one after it. -/
private theorem outcome_bind_eq_error {α β : Type} {x : Except Fault α} {k : α → Except Fault β}
    (h : x.bind k = .error f) : x = .error f ∨ ∃ a, x = .ok a ∧ k a = .error f := by
  cases x with
  | error g =>
    cases h
    exact .inl rfl
  | ok a => exact .inr ⟨a, rfl, h⟩

/-- Every fault that applying a single node gives stands in a relation to the token of the node. -/
structure NodeFaults (ops : FloatOps) (P : Fault → Token → Prop) : Prop where
  /-- A name is looked up. -/
  name {n : String} {s : Span} {f : Fault} (h : nameValue n s = .error f) :
    P f ⟨.identifier (some n), s⟩
  /-- An operator is applied. -/
  binary {op : BinaryOp} {s : Span} {v w : Value} {f : Fault} (h : op.apply ops s v w = .error f) :
    P f ⟨op.lexeme, s⟩
  /-- A sign is applied. -/
  signed {sg : Sign} {s : Span} {v : Value} {f : Fault} (h : sg.apply ops s v = .error f) :
    P f ⟨sg.lexeme, s⟩
  /-- A function is applied. -/
  call {g : Function} {s : Span} {vs : List Value} {f : Fault} (h : g.apply ops s vs = .error f) :
    P f ⟨.identifier (some g.name), s⟩

/-- A fault of evaluating expressions stands in a relation to a token of one of them, if it does so
for each. -/
private theorem exists_mem_walkAll {P : Fault → Token → Prop} {es : List Expr}
    (ih : ∀ e ∈ es, ∀ {f : Fault}, e.evaluate ops = .error f → ∃ t ∈ e.walk, P f t)
    (h : Expr.evaluateAll ops es = .error f) : ∃ t ∈ Expr.walkAll es, P f t := by
  induction es with
  | nil => cases h
  | cons e es ihes =>
    rw [Expr.evaluateAll_cons] at h
    rw [List.forall_mem_cons] at ih
    simp only [Expr.walkAll, List.mem_append]
    rcases outcome_bind_eq_error h with he | ⟨v, -, h⟩
    · obtain ⟨t, ht, hP⟩ := ih.1 he
      exact ⟨t, .inl ht, hP⟩
    · rcases outcome_bind_eq_error h with hes | ⟨vs, -, h⟩
      · obtain ⟨t, ht, hP⟩ := ihes ih.2 hes
        exact ⟨t, .inr ht, hP⟩
      · cases h

/-- A fault of evaluating an expression is one of a single node. -/
theorem NodeFaults.exists_mem_walk {P : Fault → Token → Prop} (hP : NodeFaults ops P) (e : Expr)
    (h : e.evaluate ops = .error f) : ∃ t ∈ e.walk, P f t := by
  induction e generalizing f with
  | literal v s => cases h
  | name n s =>
    rw [Expr.evaluate_name] at h
    exact ⟨_, List.mem_singleton_self _, hP.name h⟩
  | binary op l r s ihl ihr =>
    rw [Expr.evaluate_binary] at h
    simp only [Expr.walk, List.mem_append, List.mem_cons]
    rcases outcome_bind_eq_error h with hl | ⟨v, -, h⟩
    · obtain ⟨t, ht, hf⟩ := ihl hl
      exact ⟨t, .inl ht, hf⟩
    · rcases outcome_bind_eq_error h with hr | ⟨w, -, happly⟩
      · obtain ⟨t, ht, hf⟩ := ihr hr
        exact ⟨t, .inr (.inr ht), hf⟩
      · exact ⟨_, .inr (.inl rfl), hP.binary happly⟩
  | signed sg x s ih =>
    rw [Expr.evaluate_signed] at h
    rcases outcome_bind_eq_error h with hx | ⟨v, -, happly⟩
    · obtain ⟨t, ht, hf⟩ := ih hx
      exact ⟨t, List.mem_cons_of_mem _ ht, hf⟩
    · exact ⟨_, List.mem_cons_self, hP.signed happly⟩
  | call g args s ih =>
    rw [Expr.evaluate_call] at h
    rcases outcome_bind_eq_error h with hargs | ⟨vs, -, happly⟩
    · obtain ⟨t, ht, hf⟩ := exists_mem_walkAll ih hargs
      exact ⟨t, List.mem_cons_of_mem _ ht, hf⟩
    · exact ⟨_, List.mem_cons_self, hP.call happly⟩

/-- A fault of evaluating an expression blames one of the tokens of its nodes. -/
theorem Expr.exists_blamesToken (e : Expr) (h : e.evaluate ops = .error f) :
    ∃ t ∈ e.walk, f.BlamesToken t :=
  NodeFaults.exists_mem_walk
    ⟨blamesToken_of_nameValue, BinaryOp.blamesToken_of_apply, Sign.blamesToken_of_apply,
      Function.blamesToken_of_apply⟩ e h

end Nodes

/-- A syntax fault tells the kind of the token that it was found at. -/
theorem Cause.mem_details_of_found? {c : Cause} {l : Lexeme} (h : c.found? = some l) :
    ("found", .text l.kindName) ∈ c.details := by
  cases c <;> simp_all [found?, details]

/-- What is blamed as a text is not found at a token. -/
theorem Cause.Blames.found?_eq_none {c : Cause} {cs : List Char} (h : c.Blames cs) :
    c.found? = none := by
  cases h <;> rfl

/-- What is blamed as a text is the character, the literal, the function or the name in the data of
the cause. -/
theorem Cause.Blames.eq_of_mem_details {c : Cause} {cs : List Char} (h : c.Blames cs)
    {key x : String} (hkey : key ∈ ["char", "text", "function", "name"])
    (hmem : (key, .text x) ∈ c.details) : cs = x.toList := by
  cases h with
  | character c =>
    obtain ⟨-, rfl⟩ : key = "char" ∧ x = String.singleton c := by simpa [details] using hmem
    simp
  | literal cs reason =>
    obtain ⟨-, rfl⟩ : key = "text" ∧ x = String.ofList cs := by simpa [details] using hmem
    exact String.toList_ofList.symm
  | argument name y requirement =>
    rcases List.mem_cons.mp hmem with hfunction | hargument
    · cases hfunction
      rfl
    · obtain ⟨rfl, -⟩ := Prod.mk.inj (List.mem_singleton.mp hargument)
      simp at hkey
  | argumentCount name expected got =>
    obtain ⟨-, rfl⟩ : key = "function" ∧ x = name := by simpa [details] using hmem
    rfl
  | unknownName name =>
    obtain ⟨-, rfl⟩ : key = "name" ∧ x = name := by simpa [details] using hmem
    rfl
  | quotient | remainder | floatModulo => cases hmem
  | addition | subtraction | multiplication | negation | magnitude =>
    obtain ⟨rfl, -⟩ := Prod.mk.inj (List.mem_singleton.mp hmem)
    simp at hkey

/-- No such data come with a syntax fault. -/
theorem Cause.not_mem_details_of_found? {c : Cause} {l : Lexeme} (h : c.found? = some l)
    {key x : String} (hkey : key ∈ ["char", "text", "function", "name"]) :
    (key, .text x) ∉ c.details := by
  intro hmem
  cases c <;> simp [found?, details] at h hmem <;> simp [hmem] at hkey

/-- A token that is written is complete. -/
theorem Writes.isComplete {t : Token} {cs : List Char} (h : Writes t.lexeme cs) : t.IsComplete := by
  refine ⟨h.ne_eof, fun ht => ?_, fun ht => ?_⟩
  · rw [ht] at h
    cases h with
    | sign h => cases h
  · rw [ht] at h
    cases h with
    | sign h => cases h

/-- Where a source is refused, the fault stands at the character or the literal that it mentions. -/
theorem Refuses.blames {source : List Char} {p : Nat} {f : Fault}
    (h : Refuses (source.drop p) p f) :
    f.span.start = p ∧ f.span.start ≤ f.span.stop ∧ f.span.stop ≤ source.length ∧
      f.cause.Blames (f.span.text source) := by
  have hbounds {text : List Char} (hfront : text <+: source.drop p) (hne : text ≠ []) :
      p + text.length ≤ source.length := by
    have hlength := hfront.length_le
    have hpos := List.length_pos_iff.mpr hne
    rw [List.length_drop] at hlength
    omega
  cases h with
  | @character c hc _ _ =>
    have hfront : [c] <+: source.drop p := by
      obtain ⟨cs, hcs⟩ := List.head?_eq_some_iff.mp hc
      exact ⟨cs, hcs.symm⟩
    have hle := hbounds hfront (by simp)
    have htext : Span.text ⟨p, p + 1⟩ source = [c] := Span.text_eq hfront
    refine ⟨rfl, by simp, by simp at hle ⊢; omega, ?_⟩
    rw [htext]
    exact .character c
  | tooManyDigits hleads hwhole _ | outOfRange hleads hwhole _ _ =>
    have hle := hbounds hleads.front hwhole.1
    refine ⟨rfl, by simp, by simp; omega, ?_⟩
    rw [Span.text_eq hleads.front]
    exact .literal _ _

section Sources

variable {source : String} {ops : FloatOps} {f : Fault}

/-- What a fault of a calculation says about the source: a syntax fault stands at a scanned token
that it finds, behind the source exactly if that is the end of the input, and any other fault at the
text that its cause blames. -/
structure Fault.Blames (source : String) (f : Fault) : Prop where
  /-- The span lies in the source. -/
  bounds : 0 ≤ f.span.start ∧ f.span.start ≤ f.span.stop ∧ f.span.stop ≤ source.length
  /-- A syntax fault stands at a token. -/
  found : ∀ l, f.cause.found? = some l → ("found", .text l.kindName) ∈ f.cause.details ∧
    (∃ ts, scan source = .ok ts ∧ ⟨l, f.span⟩ ∈ ts) ∧
    (l ≠ .eof → Writes l (f.span.text source.toList)) ∧
    (f.span.start = source.length ∧ f.span.stop = source.length ↔ l = .eof)
  /-- Any other fault stands at a text. -/
  text : f.cause.found? = none → f.cause.Blames (f.span.text source.toList)
  /-- The character, the literal, the function or the name in its data is that text. -/
  named : ∀ key x, key ∈ ["char", "text", "function", "name"] →
    (key, .text x) ∈ f.cause.details → f.span.text source.toList = x.toList

/-- A fault that blames the text that it covers. -/
theorem Fault.blames_of_text
    (hbounds : 0 ≤ f.span.start ∧ f.span.start ≤ f.span.stop ∧ f.span.stop ≤ source.length)
    (h : f.cause.Blames (f.span.text source.toList)) : f.Blames source where
  bounds := hbounds
  found l hl := by
    rw [h.found?_eq_none] at hl
    cases hl
  text _ := h
  named _ _ hkey hmem := h.eq_of_mem_details hkey hmem

/-- A fault that is found at a token of the source or at its end. -/
theorem Fault.blames_of_found {us : List Token} {t : Token}
    (hscan : scan source = .ok (us ++ [⟨.eof, ⟨source.length, source.length⟩⟩]))
    (hus : Tokenizes source.toList source.length us)
    (ht : t ∈ us ++ [⟨.eof, ⟨source.length, source.length⟩⟩]) (hspan : f.span = t.span)
    (hfound : f.cause.found? = some t.lexeme) : f.Blames source := by
  have htext : f.cause.found? = none → f.cause.Blames (f.span.text source.toList) := by
    rw [hfound]
    exact fun h => by cases h
  have hnamed : ∀ key x, key ∈ ["char", "text", "function", "name"] →
      (key, .text x) ∈ f.cause.details → f.span.text source.toList = x.toList :=
    fun key x hkey hmem => absurd hmem (Cause.not_mem_details_of_found? hfound hkey)
  have hmem : ∃ ts, scan source = .ok ts ∧ ⟨t.lexeme, f.span⟩ ∈ ts := ⟨_, hscan, hspan ▸ ht⟩
  have hdetails := Cause.mem_details_of_found? hfound
  rcases List.mem_append.mp ht with htu | hteof
  · have hbounds := hus.bounds t htu
    have hwritten := hus.written t htu
    rw [← hspan] at hbounds hwritten
    refine ⟨⟨hbounds.1, Int.le_of_lt hbounds.2.1, hbounds.2.2⟩, fun l hl => ?_, htext, hnamed⟩
    obtain rfl := Option.some.inj (hfound.symm.trans hl)
    refine ⟨hdetails, hmem, fun _ => hwritten, fun hend => ?_, fun heof => ?_⟩
    · have hlt := hbounds.2.1
      rw [hend.1, hend.2] at hlt
      exact absurd hlt (Int.lt_irrefl _)
    · exact absurd heof (hus.ne_eof t htu)
  · obtain rfl := List.mem_singleton.mp hteof
    refine ⟨by simp [hspan], fun l hl => ?_, htext, hnamed⟩
    obtain rfl := Option.some.inj (hfound.symm.trans hl)
    exact ⟨hdetails, hmem, fun hne => absurd rfl hne, fun _ => rfl, fun _ => by simp [hspan]⟩

/-- Every fault of a calculation blames a part of its source. -/
theorem blames_of_calculate (options : Options)
    (h : (calculate ops options source).result = .error (.fault f)) : f.Blames source := by
  have hcut := scan_cut source
  unfold calculate at h
  cases hscan : scan source with
  | error g =>
    rw [hscan] at hcut h
    cases h
    obtain ⟨p, us, -, hrefuses⟩ := hcut
    obtain ⟨hstart, hle, hstop, hblames⟩ := hrefuses.blames
    rw [String.length_toList] at hstop
    exact Fault.blames_of_text ⟨by omega, hle, hstop⟩ hblames
  | ok tokens =>
    rw [hscan] at hcut h
    obtain ⟨us, rfl, hcut⟩ := hcut
    have hus := hcut.tokenizes
    have hterm := Parser.isTerminated_append_singleton us
      (e := ⟨.eof, ⟨source.length, source.length⟩⟩) rfl
    simp only [Calculation.after, Calculation.parsing] at h
    cases hparse : Parser.parse (us ++ [⟨.eof, ⟨source.length, source.length⟩⟩])
        (.initial .empty options.maxDepth) with
    | error stop s =>
      rw [hparse] at h
      cases h
      obtain ⟨before, t, after, hsplit, -, hspan, hfound⟩ := Parser.exists_blamed hterm hparse
      exact Fault.blames_of_found hscan hus (by simp [hsplit]) hspan hfound.found?_eq
    | ok e s =>
      rw [hparse] at h
      simp only [Calculation.evaluating] at h
      cases heval : e.evaluate ops with
      | ok v =>
        rw [heval] at h
        cases h
      | error g =>
        rw [heval] at h
        cases h
        obtain ⟨t, ht, hblames⟩ := e.exists_blamesToken heval
        obtain ⟨d, hd⟩ := Parser.derives_of_parse_eq_ok hus.ne_eof rfl hparse
        rw [hd.walk_eq] at ht
        obtain ⟨u, hmem, rfl⟩ := List.mem_map.mp (List.mem_of_mem_filter ht)
        rw [(hus.written u hmem).isComplete.completed_eq] at hblames
        have hbounds := hus.bounds u hmem
        have hwritten := hus.written u hmem
        rw [hblames.1] at hbounds hwritten
        exact Fault.blames_of_text ⟨hbounds.1, Int.le_of_lt hbounds.2.1, hbounds.2.2⟩
          (hblames.2 _ hwritten)

/-- A remainder by zero after a sum blames the sign of the remainder. -/
theorem blames_zeroDivisor :
    (calculate .machine .default "1 + 7 % 0").result = .error (.fault ⟨.divisionByZero, ⟨6, 7⟩⟩) ∧
    Cause.divisionByZero.Blames (Span.text ⟨6, 7⟩ "1 + 7 % 0".toList) := by
  have h : (calculate .machine .default "1 + 7 % 0").result =
      .error (.fault ⟨.divisionByZero, ⟨6, 7⟩⟩) := by decide +kernel
  exact ⟨h, (blames_of_calculate .default h).text rfl⟩

end Sources

end Reckoner
