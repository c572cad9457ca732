import Reckoner.Proofs.Blame
import Reckoner.Proofs.Data.Magnitudes
import Reckoner.Proofs.Parsing.Sessions
import Reckoner.Proofs.Parsing.Walk
import Reckoner.Proofs.Relocation

/-!
# Comparing expressions

A comparison of expressions looks at neither their places nor the sign of a zero, and it finds
not-a-number unequal to everything. Bare of places and with one zero, expressions compare equal
exactly if they are equal; so among expressions without not-a-number the comparison is an
equivalence. Evaluation can tell the zeros apart, but no source writes the negative one.
-/

namespace Reckoner

/-! ### What a comparison looks at -/

/-- The double that a token carries. -/
def Token.double? (t : Token) : Option Float :=
  match t.lexeme with
  | .number (some (.float x)) => some x
  | _ => none

/-- A value with one zero of the doubles. -/
def Value.bare : Value → Value
  | integer n => integer n
  | float x => float (oneZero x)

namespace Expr

/-- The doubles among the literals of an expression, in the order of its text. -/
def doubles (e : Expr) : List Float := e.walk.filterMap Token.double?

/-- An expression without its places. -/
def unplaced (e : Expr) : Expr := e.relocate fun _ => default

mutual

/-- An expression without its places and with one zero of the doubles. -/
def bare : Expr → Expr
  | literal v _ => literal v.bare default
  | name n _ => name n default
  | binary op l r _ => binary op l.bare r.bare default
  | signed sg x _ => signed sg x.bare default
  | call f args _ => call f (bareAll args) default

/-- Expressions without their places and with one zero of the doubles. -/
def bareAll : List Expr → List Expr
  | [] => []
  | e :: es => e.bare :: bareAll es

end

theorem bareAll_eq_map (es : List Expr) : bareAll es = es.map bare := by
  induction es with
  | nil => rfl
  | cons e es ih => rw [bareAll, ih, List.map_cons]

theorem walkAll_eq_flatMap (es : List Expr) : walkAll es = es.flatMap walk := by
  induction es with
  | nil => rfl
  | cons e es ih => rw [walkAll, ih, List.flatMap_cons]

/-! ### The doubles of an expression -/

section Doubles

variable (s : Span)

@[simp] theorem doubles_integer (n : Integer) : (literal (.integer n) s).doubles = [] := rfl

@[simp] theorem doubles_float (x : Float) : (literal (.float x) s).doubles = [x] := rfl

@[simp] theorem doubles_name (n : String) : (name n s).doubles = [] := rfl

@[simp] theorem doubles_binary (op : BinaryOp) (l r : Expr) :
    (binary op l r s).doubles = l.doubles ++ r.doubles := by
  have hop : Token.double? ⟨op.lexeme, s⟩ = none := by cases op <;> rfl
  rw [doubles, walk, List.filterMap_append, List.filterMap_cons_none hop]
  rfl

@[simp] theorem doubles_signed (sg : Sign) (x : Expr) : (signed sg x s).doubles = x.doubles := by
  have hsign : Token.double? ⟨sg.lexeme, s⟩ = none := by cases sg <;> rfl
  rw [doubles, walk, List.filterMap_cons_none hsign]
  rfl

@[simp] theorem doubles_call (f : Function) (args : List Expr) :
    (call f args s).doubles = args.flatMap doubles := by
  rw [doubles, walk, List.filterMap_cons_none rfl, walkAll_eq_flatMap, List.filterMap_flatMap]
  rfl

end Doubles

/-- A double of an expression is carried by the token of one of its nodes. -/
theorem exists_of_mem_doubles {e : Expr} {x : Float} (h : x ∈ e.doubles) :
    ∃ t ∈ e.walk, t.lexeme = .number (some (.float x)) := by
  obtain ⟨t, ht, hx⟩ := List.mem_filterMap.mp h
  refine ⟨t, ht, ?_⟩
  unfold Token.double? at hx
  split at hx
  · rename_i hlexeme
    rw [hlexeme, Option.some.inj hx]
  · cases hx

/-! ### Places -/

section Places

variable (place : Span → Span)

/-- An expression that is placed anew has the same tokens there. -/
theorem walk_relocate (e : Expr) : (e.relocate place).walk = e.walk.map (Token.relocate place) := by
  induction e with
  | literal v s => rfl
  | name n s => rfl
  | binary op l r s ihl ihr =>
    rw [relocate, walk, ihl, ihr, walk, List.map_append, List.map_cons]
    rfl
  | signed sg x s ih =>
    rw [relocate, walk, ih, walk, List.map_cons]
    rfl
  | call f args s ih =>
    rw [relocate, relocateAll_eq_map, walk, walkAll_eq_flatMap, List.flatMap_map, walk,
      walkAll_eq_flatMap, List.map_cons, List.map_flatMap, List.flatMap_congr ih]
    rfl

/-- Places have no part in the doubles. -/
theorem doubles_relocate (e : Expr) : (e.relocate place).doubles = e.doubles := by
  rw [doubles, walk_relocate, List.filterMap_map]
  rfl

/-- Places have no part in what a comparison looks at. -/
theorem bare_relocate (e : Expr) : (e.relocate place).bare = e.bare := by
  induction e with
  | literal v s => rfl
  | name n s => rfl
  | binary op l r s ihl ihr => rw [relocate, bare, ihl, ihr, bare]
  | signed sg x s ih => rw [relocate, bare, ih, bare]
  | call f args s ih =>
    have hargs : (args.map (relocate place)).map bare = args.map bare := by
      rw [List.map_map]
      exact List.map_congr_left ih
    rw [relocate, relocateAll_eq_map, bare, bareAll_eq_map, hargs, bare, bareAll_eq_map]

end Places

section Unplaced

variable (s : Span)

@[simp] theorem unplaced_literal (v : Value) : (literal v s).unplaced = literal v default := rfl

@[simp] theorem unplaced_name (n : String) : (name n s).unplaced = name n default := rfl

@[simp] theorem unplaced_binary (op : BinaryOp) (l r : Expr) :
    (binary op l r s).unplaced = binary op l.unplaced r.unplaced default := rfl

@[simp] theorem unplaced_signed (sg : Sign) (x : Expr) :
    (signed sg x s).unplaced = signed sg x.unplaced default := rfl

@[simp] theorem unplaced_call (f : Function) (args : List Expr) :
    (call f args s).unplaced = call f (args.map unplaced) default := by
  rw [unplaced, relocate, relocateAll_eq_map]
  rfl

end Unplaced

/-- Without the negative zero, an expression is bare if it has no places. -/
theorem bare_eq_unplaced {e : Expr} (h : ∀ x ∈ e.doubles, x ≠ -0.0) : e.bare = e.unplaced := by
  induction e with
  | literal v s =>
    cases v with
    | integer n => rfl
    | float x => rw [bare, Value.bare, oneZero_of_ne (h x (by simp)), unplaced_literal]
  | name n s => rfl
  | binary op l r s ihl ihr =>
    rw [doubles_binary, List.forall_mem_append] at h
    rw [bare, ihl h.1, ihr h.2, unplaced_binary]
  | signed sg x s ih => rw [bare, ih (by simpa using h), unplaced_signed]
  | call f args s ih =>
    simp only [doubles_call, List.mem_flatMap] at h
    have hargs : args.map bare = args.map unplaced :=
      List.map_congr_left fun a ha => ih a ha fun x hx => h x ⟨a, ha, hx⟩
    rw [bare, bareAll_eq_map, hargs, unplaced_call]

end Expr

/-! ### Equality -/

/-- Values compare equal exactly if they are numbers and bare the same. -/
theorem Value.same_iff (v w : Value) :
    v.same w = true ↔ v.bare = w.bare ∧ ∀ x, v = .float x → x.isNaN = false := by
  cases v <;> cases w <;> simp [same, bare, beq_iff_oneZero_eq]

namespace Expr

/-- Lists compare equal exactly if their members do, provided that each of the first list does. -/
private theorem sameAll_iff {es : List Expr}
    (h : ∀ e ∈ es, ∀ f : Expr,
      e.same f = true ↔ e.bare = f.bare ∧ ∀ x ∈ e.doubles, x.isNaN = false) (fs : List Expr) :
    sameAll es fs = true ↔
      es.map bare = fs.map bare ∧ ∀ x ∈ es.flatMap doubles, x.isNaN = false := by
  induction es generalizing fs with
  | nil => cases fs <;> simp [sameAll]
  | cons e es ih =>
    cases fs with
    | nil => simp [sameAll]
    | cons f fs =>
      rw [List.forall_mem_cons] at h
      rw [sameAll, Bool.and_eq_true, h.1, ih h.2, List.map_cons, List.map_cons, List.cons.injEq,
        List.flatMap_cons, List.forall_mem_append]
      tauto

/-- Expressions compare equal exactly if they are bare the same and no literal is
not-a-number. -/
theorem same_iff (e f : Expr) :
    e.same f = true ↔ e.bare = f.bare ∧ ∀ x ∈ e.doubles, x.isNaN = false := by
  induction e generalizing f with
  | literal v s =>
    cases f with
    | literal w t =>
      rw [same, Value.same_iff]
      cases v <;> simp [bare]
    | _ => simp [same, bare]
  | name m s =>
    cases f with
    | name n t => simp [same, bare]
    | _ => simp [same, bare]
  | binary o l r s ihl ihr =>
    cases f with
    | binary p l' r' t =>
      simp only [same, Bool.and_eq_true, beq_iff_eq, ihl, ihr, bare, binary.injEq, and_true,
        doubles_binary, List.forall_mem_append]
      tauto
    | _ => simp [same, bare]
  | signed sg x s ih =>
    cases f with
    | signed sg' y t =>
      simp only [same, Bool.and_eq_true, beq_iff_eq, ih, bare, signed.injEq, and_true,
        doubles_signed, and_assoc]
    | _ => simp [same, bare]
  | call g as s ih =>
    cases f with
    | call g' bs t =>
      simp only [same, Bool.and_eq_true, beq_iff_eq, sameAll_iff ih, bare, call.injEq, and_true,
        doubles_call, bareAll_eq_map, and_assoc]
    | _ => simp [same, bare]

/-- Expressions that compare equal and in which no zero is negative differ in their places only. -/
theorem unplaced_eq_of_same {e f : Expr} (h : e.same f = true) (he : ∀ x ∈ e.doubles, x ≠ -0.0)
    (hf : ∀ x ∈ f.doubles, x ≠ -0.0) : e.unplaced = f.unplaced := by
  rw [← bare_eq_unplaced he, ← bare_eq_unplaced hf]
  exact ((same_iff e f).mp h).1

/-- Expressions that differ in their places only are compared in the same way. -/
theorem same_congr {e e' f f' : Expr} (he : e.unplaced = e'.unplaced)
    (hf : f.unplaced = f'.unplaced) : e.same f = e'.same f' := by
  have hbare {a b : Expr} (h : a.unplaced = b.unplaced) : a.bare = b.bare := by
    rw [← bare_relocate (fun _ => default) a, ← bare_relocate (fun _ => default) b]
    exact congrArg bare h
  have hdoubles : e.doubles = e'.doubles := by
    rw [← doubles_relocate (fun _ => default) e, ← doubles_relocate (fun _ => default) e']
    exact congrArg doubles he
  rw [Bool.eq_iff_iff, same_iff, same_iff, hbare he, hbare hf, hdoubles]

/-- Expressions that differ in their places only have the same value, or faults that differ in
their places only. -/
theorem evaluate_of_unplaced_eq (ops : FloatOps) {e f : Expr} (h : e.unplaced = f.unplaced) :
    (∃ v, e.evaluate ops = .ok v ∧ f.evaluate ops = .ok v) ∨
      ∃ p q, e.evaluate ops = .error p ∧ f.evaluate ops = .error q ∧ p.cause = q.cause := by
  have hrun : (e.evaluate ops).mapError (Fault.relocate fun _ => default) =
      (f.evaluate ops).mapError (Fault.relocate fun _ => default) := by
    rw [← evaluate_relocate, ← evaluate_relocate]
    exact congrArg (evaluate ops) h
  rcases of_mapError_eq _ hrun with hvalue | ⟨p, q, hp, hq, hpq⟩
  · exact .inl hvalue
  · exact .inr ⟨p, q, hp, hq, (Fault.mk.inj hpq).1⟩

end Expr

/-! ### Expressions of sources -/

/-- The nodes of an expression that is parsed from a source stand for tokens that are written. -/
theorem writes_of_parseSource {source : String} {s s' : Parser.State} {e : Expr}
    (h : Parser.parseSource source s = .ok e s') : ∀ t ∈ e.walk, ∃ cs, Writes t.lexeme cs := by
  cases hscan : scan source with
  | error f =>
    rw [Parser.parseSource_of_error hscan] at h
    cases h
  | ok ts =>
    obtain ⟨us, rfl, hus⟩ := writes_of_scan hscan
    have hne : ∀ t ∈ us, t.lexeme ≠ .eof := fun t ht => (hus t ht).choose_spec.ne_eof
    have hcompleted : us.map Token.completed = us := by
      refine (List.map_congr_left fun t ht => ?_).trans (List.map_id us)
      exact (hus t ht).choose_spec.isComplete.completed_eq
    rw [Parser.parseSource_of_ok hscan] at h
    obtain ⟨d, hd⟩ := Parser.derives_of_parse_eq_ok hne rfl h
    rw [hcompleted] at hd
    intro t ht
    rw [hd.walk_eq] at ht
    exact hus t (List.mem_of_mem_filter ht)

namespace Expr

/-- The literals of a source are magnitudes. -/
theorem isMagnitude_of_parseSource {source : String} {s s' : Parser.State} {e : Expr}
    (h : Parser.parseSource source s = .ok e s') : ∀ x ∈ e.doubles, IsMagnitude x := by
  intro x hx
  obtain ⟨t, ht, hlexeme⟩ := exists_of_mem_doubles hx
  obtain ⟨cs, hcs⟩ := writes_of_parseSource h t ht
  rw [hlexeme] at hcs
  exact hcs.isMagnitude

/-- Among expressions without not-a-number, comparing equal is an equivalence, which has no regard
to places. Expressions that compare equal, and in which no zero is negative, have the same value, or
they are at fault for the same cause. The expressions of sources have neither not-a-number nor the
negative zero. -/
theorem same_equivalence :
    Equivalence (fun e f : {e : Expr // ∀ x ∈ e.doubles, x.isNaN = false} =>
      e.1.same f.1 = true) ∧
    (∀ e e' f f' : Expr, e.unplaced = e'.unplaced → f.unplaced = f'.unplaced →
      e.same f = e'.same f') ∧
    (∀ (ops : FloatOps) (e f : Expr), e.same f = true → (∀ x ∈ e.doubles, x ≠ -0.0) →
      (∀ x ∈ f.doubles, x ≠ -0.0) →
      (∃ v, e.evaluate ops = .ok v ∧ f.evaluate ops = .ok v) ∨
        ∃ p q, e.evaluate ops = .error p ∧ f.evaluate ops = .error q ∧ p.cause = q.cause) ∧
    ∀ (source : String) (s s' : Parser.State) (e : Expr),
      Parser.parseSource source s = .ok e s' → ∀ x ∈ e.doubles, x.isNaN = false ∧ x ≠ -0.0 := by
  refine ⟨?_, fun _ _ _ _ => same_congr, fun ops e f h he hf => ?_, fun _ _ _ e h x hx => ?_⟩
  · have hbare : (fun e f : {e : Expr // ∀ x ∈ e.doubles, x.isNaN = false} =>
        e.1.same f.1 = true) = fun e f => e.1.bare = f.1.bare := by
      funext e f
      rw [same_iff, eq_iff_iff, and_iff_left e.2]
    rw [hbare]
    exact ⟨fun _ => rfl, Eq.symm, Eq.trans⟩
  · exact evaluate_of_unplaced_eq ops (unplaced_eq_of_same h he hf)
  · have hmagnitude := isMagnitude_of_parseSource h x hx
    exact ⟨hmagnitude.isNaN, hmagnitude.ne_neg_zero⟩

/-- The root of `-1.5`, with all of it at one place. -/
private def rootAt (s : Span) : Expr := call .sqrt [signed .neg (literal (.float 1.5) s) s] s

/-- The root of a number below zero is at fault for the same cause wherever it stands. -/
theorem same_equivalence_root :
    (rootAt ⟨0, 4⟩).same (rootAt ⟨1, 5⟩) = true ∧
      (rootAt ⟨0, 4⟩).evaluate .machine =
        .error ⟨.invalidArgument "sqrt" (.float (-1.5)) "must be >= 0", ⟨0, 4⟩⟩ ∧
      ∃ s, (rootAt ⟨1, 5⟩).evaluate .machine =
        .error ⟨.invalidArgument "sqrt" (.float (-1.5)) "must be >= 0", s⟩ := by
  have hsame : (rootAt ⟨0, 4⟩).same (rootAt ⟨1, 5⟩) = true := by decide +kernel
  have hdoubles (s : Span) : ∀ x ∈ (rootAt s).doubles, x ≠ -0.0 := by
    rw [show (rootAt s).doubles = [1.5] from rfl, List.forall_mem_singleton]
    decide +kernel
  have hfault : (rootAt ⟨0, 4⟩).evaluate .machine =
      .error ⟨.invalidArgument "sqrt" (.float (-1.5)) "must be >= 0", ⟨0, 4⟩⟩ := by decide +kernel
  refine ⟨hsame, hfault, ?_⟩
  rcases same_equivalence.2.2.1 .machine _ _ hsame (hdoubles _) (hdoubles _) with
    ⟨v, hv, -⟩ | ⟨p, ⟨c, s⟩, hp, hq, hc⟩
  · rw [hfault] at hv
    cases hv
  · rw [hfault] at hp
    cases hp
    obtain rfl : _ = c := hc
    exact ⟨s, hq⟩

end Expr

end Reckoner
