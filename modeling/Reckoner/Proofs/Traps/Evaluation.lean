import Reckoner.Proofs.Evaluation.Recursion
import Reckoner.Proofs.Traps.Library

/-!
# Evaluation with traps

Evaluation is stated once more, with every step that can trap: a result that is made an integer is
checked against the bounds of the type, tables are searched by name, arguments are taken by their
position, and the primitives are those of a library. If the library does what is documented, then
nothing traps but what is a fault of the source, and the outcome is that of evaluation.
-/

namespace Reckoner

open Library

/-- A fault is one of the traps. -/
def raised {α : Type} (x : Except Fault α) : Except Trap α := x.mapError .fault

@[simp] theorem raised_ok {α : Type} (a : α) : raised (.ok a) = .ok a := rfl

@[simp] theorem raised_error {α : Type} (f : Fault) :
    raised (.error f : Except Fault α) = .error (.fault f) := rfl

@[simp] theorem ok_then {ε α β : Type} (a : α) (f : α → Except ε β) :
    (Except.ok a >>= f) = f a := rfl

theorem raised_bind {α β : Type} (x : Except Fault α) (f : α → Except Fault β) :
    raised (x.bind f) = (raised x).bind fun a => raised (f a) := by
  cases x <;> rfl

/-- The entry of a table, which has to be there. -/
def entry {α : Type} : Option α → Except Trap α
  | some a => .ok a
  | none => .error .key

/-- The element at a position, which has to be there. -/
def element {α : Type} (xs : List α) (i : Nat) : Except Trap α :=
  match xs[i]? with
  | some a => .ok a
  | none => .error .index

/-- An integer value, which has to be within the bounds of its type. -/
def boundedInteger (n : Int) : Except Trap Value :=
  if h : fitsInteger n = true then .ok (.integer ⟨n, h⟩) else .error .bounds

/-- An integer result, whose range is checked before a value is made of it. -/
def guardedInteger (n : Int) (operation : String) (s : Span) : Except Trap Value := do
  if !fitsInteger n then
    throw (.fault ⟨.overflow operation, s⟩)
  boundedInteger n

/-- The remainder of whole numbers, none of which is negative. -/
def wholeRemainder (m n : Int) : Except Trap Int :=
  if n = 0 then .error .zeroDivision else .ok (m % n)

/-- The remainder of two values: that of their magnitudes, with the sign of the dividend. -/
def guardedRemainder (s : Span) : Value → Value → Except Trap Value
  | .integer m, .integer n => do
    if n.val = 0 then
      throw (.fault ⟨.divisionByZero, s⟩)
    let r ← wholeRemainder m.val.natAbs n.val.natAbs
    boundedInteger (if m.val < 0 then -r else r)
  | _, _ => throw (.fault ⟨.floatModulo, s⟩)

/-- The value of a name, which is looked up after it was found to be in the table. -/
def guardedName (n : String) (s : Span) : Except Trap Value := do
  if (Constant.ofName? n).isSome then
    let c ← entry (Constant.ofName? n)
    return .float c.value
  else
    throw (.fault ⟨.unknownVariable n, s⟩)

namespace Library

variable (lib : Library)

/-- A value as a double. -/
def toFloat : Value → Except Trap Float
  | .integer n => lib.ofInt n.val
  | .float x => return x

/-- An operation that is checked on integers and a primitive on doubles. -/
def arithmetic (onInts : Int → Int → Int) (onFloats : Float → Float → Except Trap Float)
    (operation : String) (s : Span) : Value → Value → Except Trap Value
  | .integer m, .integer n => guardedInteger (onInts m.val n.val) operation s
  | v, w => do
    let x ← lib.toFloat v
    let y ← lib.toFloat w
    let z ← onFloats x y
    return .float z

/-- The quotient, whose divisor is checked first. -/
def quotient (s : Span) (v w : Value) : Except Trap Value := do
  let y ← lib.toFloat w
  if y == 0.0 then
    throw (.fault ⟨.divisionByZero, s⟩)
  let x ← lib.toFloat v
  let z ← lib.div x y
  return .float z

/-- The power. -/
def power (v w : Value) : Except Trap Value := do
  let x ← lib.toFloat v
  let y ← lib.toFloat w
  let z ← lib.ieeePow x y
  return .float z

/-- The table of the operators. -/
def operators : List (BinaryOp × (Span → Value → Value → Except Trap Value)) :=
  [(.add, lib.arithmetic (· + ·) lib.add "addition"),
    (.sub, lib.arithmetic (· - ·) lib.sub "subtraction"),
    (.mul, lib.arithmetic (· * ·) lib.mul "multiplication"),
    (.div, lib.quotient),
    (.mod, guardedRemainder),
    (.pow, fun _ => lib.power)]

/-- Apply an operator, which is looked up in the table. -/
def operate (op : BinaryOp) (s : Span) (v w : Value) : Except Trap Value := do
  let apply ← entry (lib.operators.lookup op)
  apply s v w

/-- Apply a sign. -/
def sign (sg : Sign) (s : Span) (v : Value) : Except Trap Value :=
  match sg, v with
  | .pos, v => return v
  | .neg, .integer n => guardedInteger (-n.val) "negation" s
  | .neg, .float x => return .float (lib.neg x)

/-- The result of a function, which takes no other number of doubles than it names. -/
def compute : Function → List Float → Except Trap Float
  | .abs, [x] => return lib.abs x
  | .sqrt, [x] => lib.sqrt x
  | .pow, [x, y] => lib.ieeePow x y
  | .sin, [x] => nanOnRefusal (lib.sin x)
  | .cos, [x] => nanOnRefusal (lib.cos x)
  | .tan, [x] => nanOnRefusal (lib.tan x)
  | .log, [x] => lib.log10 x
  | .ln, [x] => lib.ln x
  | _, _ => throw .type

/-- A double in the domain of a function. -/
def checkDomain (f : Function) (s : Span) (x : Float) : Except Trap Unit := do
  if !f.admits x then
    throw (.fault ⟨.invalidArgument f.name (.float x) f.requirement, s⟩)

/-- Apply a function to values as doubles. -/
def callFloats (f : Function) (s : Span) (vs : List Value) : Except Trap Value := do
  let xs ← vs.mapM lib.toFloat
  xs.forM (checkDomain f s)
  let y ← lib.compute f xs
  return .float y

/-- Apply a function: the arguments are counted before the first is looked at. -/
def call (f : Function) (s : Span) (vs : List Value) : Except Trap Value := do
  if vs.length ≠ f.arity then
    throw (.fault ⟨.wrongArgumentCount f.name f.arity vs.length, s⟩)
  if f.keepsIntegers then
    match ← element vs 0 with
    | .integer n => guardedInteger n.val.natAbs f.name s
    | .float _ => lib.callFloats f s vs
  else
    lib.callFloats f s vs

mutual

/-- Evaluate an expression; the function of a call is looked up by its name. -/
def evaluate : Expr → Except Trap Value
  | .literal v _ => return v
  | .name n s => guardedName n s
  | .binary op l r s => do
    let v ← evaluate l
    let w ← evaluate r
    lib.operate op s v w
  | .signed sg x s => do
    let v ← evaluate x
    lib.sign sg s v
  | .call f args s => do
    let f ← entry (Function.ofName? f.name)
    let vs ← evaluateAll args
    lib.call f s vs

/-- Evaluate expressions from left to right. -/
def evaluateAll : List Expr → Except Trap (List Value)
  | [] => return []
  | e :: es => do
    let v ← evaluate e
    let vs ← evaluateAll es
    return v :: vs

end

end Library

section Results

variable {lib : Library}

/-- A result whose range was checked is within the bounds of its type. -/
theorem guardedInteger_eq (n : Int) (operation : String) (s : Span) :
    guardedInteger n operation s = raised (checkedInteger n operation s) := by
  unfold guardedInteger boundedInteger checkedInteger Integer.ofInt?
  by_cases h : fitsInteger n = true
  · simp only [h, Bool.not_true, Bool.false_eq_true, ite_false, dite_true]
    rfl
  · simp only [h, Bool.not_false, ite_true]
    rfl

/-- The remainder of the magnitudes with the sign of the dividend is that of the truncated
division. -/
theorem tmod_eq_natAbs_emod (m n : Int) :
    (if m < 0 then -((m.natAbs : Int) % n.natAbs) else (m.natAbs : Int) % n.natAbs) =
      m.tmod n := by
  have hn : ((m.natAbs : Int)) % n.natAbs = (m.natAbs : Int).tmod n := by
    rw [Int.tmod_eq_emod_of_nonneg (Int.natCast_nonneg _)]
    rcases Int.natAbs_eq n with h | h
    · rw [← h]
    · rw [h, Int.emod_neg, Int.natAbs_neg, Int.natAbs_natCast]
  rw [hn]
  split
  · rw [← Int.neg_tmod, Int.ofNat_natAbs_of_nonpos (by omega), Int.neg_neg]
  · rw [Int.natAbs_of_nonneg (by omega)]

/-- The remainder never divides by zero and never leaves the bounds of its type. -/
theorem guardedRemainder_eq (s : Span) (v w : Value) :
    guardedRemainder s v w = raised (remainder s v w) := by
  cases v with
  | float x => rfl
  | integer m =>
    cases w with
    | float y => rfl
    | integer n =>
      simp only [guardedRemainder, remainder]
      by_cases hn : n.val = 0
      · rw [if_pos hn, if_pos hn]
        rfl
      · have hr : wholeRemainder m.val.natAbs n.val.natAbs =
            .ok ((m.val.natAbs : Int) % n.val.natAbs) := if_neg (by omega)
        rw [if_neg hn, if_neg hn, hr]
        change boundedInteger (if m.val < 0 then _ else _) = _
        rw [tmod_eq_natAbs_emod, boundedInteger, dif_pos (fitsInteger_tmod m.fits n.fits)]
        rfl

/-- The value of a name is in the table if it was found to be there. -/
theorem guardedName_eq (n : String) (s : Span) : guardedName n s = raised (nameValue n s) := by
  unfold guardedName nameValue
  cases Constant.ofName? n <;> rfl

namespace Library.Documented

variable (h : lib.Documented)

include h

/-- Promotion never traps. -/
theorem toFloat_eq (v : Value) : lib.toFloat v = .ok (v.toFloat lib.toOps) := by
  cases v with
  | integer n => exact (h.ofInt n.val n.fits).eq_settled
  | float x => rfl

/-- Arithmetic traps only by an overflow of integers. -/
theorem arithmetic_eq {onFloats : Float → Float → Except Trap Float}
    (hgives : ∀ x y, Gives (onFloats x y)) (onInts : Int → Int → Int) (operation : String)
    (s : Span) (v w : Value) :
    lib.arithmetic onInts onFloats operation s v w = raised (Reckoner.arithmetic lib.toOps onInts
      (fun x y => settled (onFloats x y)) operation s v w) := by
  have hfloats : ∀ v w : Value, (do
      let x ← lib.toFloat v
      let y ← lib.toFloat w
      let z ← onFloats x y
      return Value.float z) = raised (.ok (.float (settled
        (onFloats (v.toFloat lib.toOps) (w.toFloat lib.toOps))))) := fun v w => by
    rw [h.toFloat_eq, h.toFloat_eq, ok_then, ok_then, (hgives _ _).eq_settled]
    rfl
  cases v with
  | float x => exact hfloats _ _
  | integer m =>
    cases w with
    | float y => exact hfloats _ _
    | integer n => exact guardedInteger_eq _ _ _

/-- A quotient traps only by a division by zero that is a fault. -/
theorem quotient_eq (s : Span) (v w : Value) :
    lib.quotient s v w = raised (Reckoner.quotient lib.toOps s v w) := by
  simp only [Library.quotient, Reckoner.quotient, h.toFloat_eq, ok_then]
  by_cases hw : (w.toFloat lib.toOps == 0.0) = true
  · rw [if_pos hw, if_pos hw]
    rfl
  · rw [if_neg hw, if_neg hw, (h.div _ _ (Bool.eq_false_iff.mpr hw)).eq_settled]
    rfl

/-- A power never traps. -/
theorem power_eq (v w : Value) : lib.power v w = raised (powerOf lib.toOps v w) := by
  simp only [Library.power, powerOf, h.toFloat_eq, ok_then]
  rw [(h.gives_ieeePow _ _).eq_settled]
  rfl

/-- Every operator is in the table, and it traps only by a fault. -/
theorem operate_eq (op : BinaryOp) (s : Span) (v w : Value) :
    lib.operate op s v w = raised (op.apply lib.toOps s v w) := by
  cases op with
  | add => exact h.arithmetic_eq h.add _ _ s v w
  | sub => exact h.arithmetic_eq h.sub _ _ s v w
  | mul => exact h.arithmetic_eq h.mul _ _ s v w
  | div => exact h.quotient_eq s v w
  | mod => exact guardedRemainder_eq s v w
  | pow => exact h.power_eq v w

omit h in
/-- A sign traps only by an overflow. -/
theorem sign_eq (sg : Sign) (s : Span) (v : Value) :
    lib.sign sg s v = raised (sg.apply lib.toOps s v) := by
  cases sg with
  | pos => rfl
  | neg =>
    cases v with
    | integer n => exact guardedInteger_eq _ _ _
    | float x => rfl

/-- A function has a result on as many doubles of its domain as it takes. -/
theorem compute_eq {f : Function} {xs : List Float} {y : Float}
    (hf : f.compute? lib.toOps xs = some y) (hdom : ∀ x ∈ xs, f.admits x = true) :
    lib.compute f xs = .ok y := by
  have hlen := (f.isSome_compute?_iff lib.toOps xs).mp (by rw [hf]; rfl)
  cases f with
  | pow =>
    match xs, hlen with
    | [x, y], _ =>
      obtain rfl := Option.some.inj hf
      exact (h.gives_ieeePow x y).eq_settled
  | abs | sqrt | sin | cos | tan | log | ln =>
    obtain ⟨x, rfl⟩ := List.length_eq_one_iff.mp hlen
    obtain rfl := Option.some.inj hf
    have hx := hdom x List.mem_cons_self
    simp only [Function.admits, Function.domain?, Option.elim, Bool.not_eq_true',
      decide_eq_false_iff_not] at hx
    first
    | rfl
    | exact (h.sqrt x hx).eq_settled
    | exact (h.sin x).gives.eq_settled
    | exact (h.cos x).gives.eq_settled
    | exact (h.tan x).gives.eq_settled
    | exact (h.log10 x hx).eq_settled
    | exact (h.ln x hx).eq_settled

/-- The promotion of several values never traps. -/
theorem mapM_toFloat_eq (vs : List Value) :
    vs.mapM lib.toFloat = .ok (vs.map (Value.toFloat lib.toOps)) := by
  induction vs with
  | nil => rfl
  | cons v vs ih =>
    rw [List.mapM_cons, h.toFloat_eq, ih]
    rfl

omit h in
/-- The first double outside the domain is a fault. -/
theorem forM_checkDomain_eq (f : Function) (s : Span) (xs : List Float) :
    xs.forM (checkDomain f s) = match xs.find? fun x => !f.admits x with
      | none => .ok ()
      | some x => .error (.fault ⟨.invalidArgument f.name (.float x) f.requirement, s⟩) := by
  induction xs with
  | nil => rfl
  | cons x xs ih =>
    rw [List.forM_eq_forM, List.forM_cons, ← List.forM_eq_forM, List.find?_cons, ih, checkDomain]
    cases f.admits x <;> rfl

/-- A function on doubles traps only outside its domain, if their number is right. -/
theorem callFloats_eq {f : Function} {vs : List Value} (hlen : vs.length = f.arity) (s : Span) :
    lib.callFloats f s vs =
      raised (f.applyFloats lib.toOps s (vs.map (Value.toFloat lib.toOps))) := by
  unfold Library.callFloats Function.applyFloats
  rw [h.mapM_toFloat_eq, ok_then, forM_checkDomain_eq]
  cases hfind : (vs.map (Value.toFloat lib.toOps)).find? fun x => !f.admits x with
  | some x => rfl
  | none =>
    have hdom : ∀ x ∈ vs.map (Value.toFloat lib.toOps), f.admits x = true := fun x hx => by
      simpa using List.find?_eq_none.mp hfind x hx
    obtain ⟨y, hy⟩ := Option.isSome_iff_exists.mp
      ((f.isSome_compute?_iff lib.toOps (vs.map (Value.toFloat lib.toOps))).mpr
        (by rwa [List.length_map]))
    simp only [ok_then, hy, h.compute_eq hy hdom]
    rfl

/-- A call traps only by a fault: its arguments are counted before one of them is taken. -/
theorem call_eq (f : Function) (s : Span) (vs : List Value) :
    lib.call f s vs = raised (f.apply lib.toOps s vs) := by
  unfold Library.call Function.apply
  by_cases hlen : vs.length = f.arity
  · rw [if_neg (not_not_intro hlen), if_neg (not_not_intro hlen)]
    cases f with
    | abs =>
      obtain ⟨v, rfl⟩ := List.length_eq_one_iff.mp hlen
      cases v with
      | integer n => exact guardedInteger_eq _ _ _
      | float x => exact h.callFloats_eq hlen s
    | _ => exact h.callFloats_eq hlen s
  · rw [if_pos hlen, if_pos hlen]
    rfl

omit h in
/-- Arguments that trap only by faults do so together. -/
theorem evaluateAll_eq {es : List Expr}
    (hes : ∀ e ∈ es, lib.evaluate e = raised (e.evaluate lib.toOps)) :
    lib.evaluateAll es = raised (Expr.evaluateAll lib.toOps es) := by
  induction es with
  | nil => rfl
  | cons e es ih =>
    rw [Library.evaluateAll, Expr.evaluateAll_cons, raised_bind, hes e List.mem_cons_self,
      ih fun e he => hes e (List.mem_cons_of_mem _ he)]
    congr 1
    funext v
    rw [raised_bind]
    rfl

/-- Evaluation traps only by faults, and these are the faults of evaluation with the primitives of
the library. -/
theorem evaluate_eq (e : Expr) : lib.evaluate e = raised (e.evaluate lib.toOps) := by
  induction e with
  | literal v s => rfl
  | name n s => rw [Library.evaluate, Expr.evaluate_name, guardedName_eq]
  | binary op l r s ihl ihr =>
    rw [Library.evaluate, Expr.evaluate_binary, ihl, ihr, raised_bind]
    congr 1
    funext v
    rw [raised_bind]
    congr 1
    funext w
    exact h.operate_eq op s v w
  | signed sg x s ih =>
    rw [Library.evaluate, Expr.evaluate_signed, ih, raised_bind]
    congr 1
    funext v
    exact sign_eq sg s v
  | call f args s ih =>
    rw [Library.evaluate, Expr.evaluate_call, Function.ofName?_name, entry, ok_then,
      evaluateAll_eq ih, raised_bind]
    congr 1
    funext vs
    exact h.call_eq f s vs

end Library.Documented

end Results

end Reckoner
