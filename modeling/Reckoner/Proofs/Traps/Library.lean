import Reckoner.Expr.Parser
import Reckoner.Proofs.Scanning.Numerals

/-!
# Primitives that can trap

What a calculation is made of can fail for other reasons than a fault of its source: a primitive
refuses its argument, a table has no entry, a list has no such position, a number is outside the
bounds of its type. Such a failure is a trap. The primitives that come from outside are collected in
a library, of which only what is documented is assumed; where they trap, some are wrapped so that a
double stands for the trap.
-/

namespace Reckoner

/-- Why a calculation ends without a value. -/
inductive Trap where
  /-- The source is at fault. -/
  | fault (f : Fault)
  /-- A number is outside the bounds of its type. -/
  | bounds
  /-- A primitive refuses the value of an argument, for a reason. -/
  | value (reason : String)
  /-- A primitive is given something of a wrong kind, or too much or too little. -/
  | type
  /-- A table has no such entry. -/
  | key
  /-- A sequence has no such position. -/
  | index
  /-- The result of a primitive is too great. -/
  | overflow
  /-- A primitive divides by zero. -/
  | zeroDivision
  /-- An operation comes too late. -/
  | late
  /-- The bound on the number of steps was too small. -/
  | steps
  deriving DecidableEq

/-- The trap that a stop of a parser is. -/
def Trap.ofStop : Stop → Trap
  | .fault f => .fault f
  | .unterminated => .value Stop.unterminated.message
  | .noToken _ => .index
  | .missingValue => .type
  | .released => .late
  | .outOfFuel => .steps

/-- The floating-point primitives from outside. -/
structure Library where
  /-- The double of an integer. -/
  ofInt : Int → Except Trap Float
  /-- The double that a text writes. -/
  read : List Char → Except Trap Float
  /-- The sum. -/
  add : Float → Float → Except Trap Float
  /-- The difference. -/
  sub : Float → Float → Except Trap Float
  /-- The product. -/
  mul : Float → Float → Except Trap Float
  /-- The quotient. -/
  div : Float → Float → Except Trap Float
  /-- The power. -/
  pow : Float → Float → Except Trap Float
  /-- The opposite. -/
  neg : Float → Float
  /-- The magnitude. -/
  abs : Float → Float
  /-- The square root. -/
  sqrt : Float → Except Trap Float
  /-- The sine. -/
  sin : Float → Except Trap Float
  /-- The cosine. -/
  cos : Float → Except Trap Float
  /-- The tangent. -/
  tan : Float → Except Trap Float
  /-- The logarithm to base ten. -/
  log10 : Float → Except Trap Float
  /-- The natural logarithm. -/
  ln : Float → Except Trap Float

/-- A primitive gives a double. -/
def Gives (r : Except Trap Float) : Prop := ∃ y, r = .ok y

/-- A primitive gives a double or refuses its argument. -/
def GivesOrRefuses (r : Except Trap Float) : Prop := Gives r ∨ ∃ reason, r = .error (.value reason)

/-- What is documented of the primitives. -/
structure Library.Documented (lib : Library) : Prop where
  /-- Every 64-bit integer has a double. -/
  ofInt : ∀ n, fitsInteger n = true → Gives (lib.ofInt n)
  /-- A numeral with a point or an exponent is read as the double nearest to it. -/
  read : ∀ {cs n rest}, Numeral.take cs = some (n, rest) → n.isWhole = false →
    lib.read n.text = .ok n.value.toFloat
  /-- A sum never traps. -/
  add : ∀ x y, Gives (lib.add x y)
  /-- A difference never traps. -/
  sub : ∀ x y, Gives (lib.sub x y)
  /-- A product never traps. -/
  mul : ∀ x y, Gives (lib.mul x y)
  /-- A quotient traps only if the divisor is zero. -/
  div : ∀ x y, (y == 0.0) = false → Gives (lib.div x y)
  /-- A power may refuse its arguments or be too great. -/
  pow : ∀ x y, GivesOrRefuses (lib.pow x y) ∨ lib.pow x y = .error .overflow
  /-- A square root traps only below zero. -/
  sqrt : ∀ x, ¬x < 0.0 → Gives (lib.sqrt x)
  /-- A sine may refuse its argument. -/
  sin : ∀ x, GivesOrRefuses (lib.sin x)
  /-- A cosine may refuse its argument. -/
  cos : ∀ x, GivesOrRefuses (lib.cos x)
  /-- A tangent may refuse its argument. -/
  tan : ∀ x, GivesOrRefuses (lib.tan x)
  /-- A logarithm traps only at zero and below. -/
  log10 : ∀ x, ¬x ≤ 0.0 → Gives (lib.log10 x)
  /-- A logarithm traps only at zero and below. -/
  ln : ∀ x, ¬x ≤ 0.0 → Gives (lib.ln x)

/-- Not a number. -/
def nan : Float := 0.0 / 0.0

/-- Infinity. -/
def infinity : Float := 1.0 / 0.0

/-- Whether a double is an odd whole number. -/
def isOdd (x : Float) : Bool := x.floor == x && x - 2.0 * (x / 2.0).floor == 1.0

/-- Whether a double has a minus sign, zero included. -/
def isSigned (x : Float) : Bool := decide (x < 0.0) || decide (1.0 / x < 0.0)

/-- The infinity that a power is too great for: negative for an odd power of a negative base. -/
def signedInfinity (x y : Float) : Float := if isOdd y && isSigned x then -infinity else infinity

/-- Not a number stands for an argument that is refused. -/
def nanOnRefusal : Except Trap Float → Except Trap Float
  | .error (.value _) => .ok nan
  | r => r

namespace Library

variable (lib : Library)

/-- The power, in which an infinity stands for a result that is too great and for a power of zero
that is refused, and not a number for any other that is refused. -/
def ieeePow (x y : Float) : Except Trap Float :=
  match lib.pow x y with
  | .error .overflow => .ok (signedInfinity x y)
  | .error (.value _) => .ok (if x == 0.0 then signedInfinity x y else nan)
  | r => r

/-- The double that a primitive gives. -/
def settled : Except Trap Float → Float
  | .ok y => y
  | .error _ => nan

/-- The primitives as total functions. -/
def toOps : FloatOps where
  ofInt n := settled (lib.ofInt n)
  add x y := settled (lib.add x y)
  sub x y := settled (lib.sub x y)
  mul x y := settled (lib.mul x y)
  div x y := settled (lib.div x y)
  pow x y := settled (lib.ieeePow x y)
  neg := lib.neg
  abs := lib.abs
  sqrt x := settled (lib.sqrt x)
  sin x := settled (nanOnRefusal (lib.sin x))
  cos x := settled (nanOnRefusal (lib.cos x))
  tan x := settled (nanOnRefusal (lib.tan x))
  log10 x := settled (lib.log10 x)
  ln x := settled (lib.ln x)

end Library

theorem Gives.eq_settled {r : Except Trap Float} (h : Gives r) : r = .ok (Library.settled r) := by
  obtain ⟨y, rfl⟩ := h
  rfl

/-- A wrapped primitive gives a double. -/
theorem GivesOrRefuses.gives {r : Except Trap Float} (h : GivesOrRefuses r) :
    Gives (nanOnRefusal r) := by
  rcases h with ⟨y, rfl⟩ | ⟨reason, rfl⟩
  · exact ⟨y, rfl⟩
  · exact ⟨nan, rfl⟩

/-- The wrapped power gives a double. -/
theorem Library.Documented.gives_ieeePow {lib : Library} (h : lib.Documented) (x y : Float) :
    Gives (lib.ieeePow x y) := by
  unfold Library.ieeePow
  rcases h.pow x y with (⟨z, hz⟩ | ⟨reason, hz⟩) | hz
  · exact ⟨z, by rw [hz]⟩
  · exact ⟨_, by rw [hz]⟩
  · exact ⟨_, by rw [hz]⟩

/-- A primitive that refuses some arguments. -/
def refusing (refused : Bool) (y : Float) : Except Trap Float :=
  if refused then .error (.value "math domain error") else .ok y

theorem gives_refusing {refused : Bool} (h : refused = false) (y : Float) :
    Gives (refusing refused y) := ⟨y, by rw [refusing, h]; rfl⟩

theorem givesOrRefuses_refusing (refused : Bool) (y : Float) :
    GivesOrRefuses (refusing refused y) := by
  cases refused with
  | false => exact .inl ⟨y, rfl⟩
  | true => exact .inr ⟨_, rfl⟩

/-- The primitives of the machine: a power of finite doubles is refused if it is not a number or a
pole and too great if it is infinite otherwise, and a trigonometric function refuses infinities. -/
def Library.machine : Library where
  ofInt n := if n.natAbs.log2 < 1024 then .ok (Float.ofInt n) else .error .overflow
  read cs :=
    match Numeral.ofText? cs with
    | some n => .ok n.value.toFloat
    | none => .error (.value "no number")
  add x y := .ok (x + y)
  sub x y := .ok (x - y)
  mul x y := .ok (x * y)
  div x y := if y == 0.0 then .error .zeroDivision else .ok (x / y)
  pow x y :=
    let z := x.pow y
    let finite := x.isFinite && y.isFinite
    if finite && z.isInf && x != 0.0 then .error .overflow
    else refusing (finite && (z.isNaN || z.isInf)) z
  neg := Float.neg
  abs := Float.abs
  sqrt x := refusing (decide (x < 0.0)) x.sqrt
  sin x := refusing x.isInf x.sin
  cos x := refusing x.isInf x.cos
  tan x := refusing x.isInf x.tan
  log10 x := refusing (decide (x ≤ 0.0)) x.log10
  ln x := refusing (decide (x ≤ 0.0)) x.log

/-- The primitives of the machine do what is documented. -/
theorem Library.documented_machine : Library.machine.Documented where
  ofInt n hn := by
    have hn := fitsInteger_iff.mp hn
    have hlog : n.natAbs.log2 < 64 := by
      by_cases h0 : n.natAbs = 0
      · simp [h0]
      · exact (Nat.log2_lt h0).mpr (by omega)
    exact ⟨_, if_pos (by omega)⟩
  read htake _ := by
    have hself := Numeral.take_text (Numeral.wellFormed_of_take htake)
    simp only [machine, Numeral.ofText?, hself]
  add _ _ := ⟨_, rfl⟩
  sub _ _ := ⟨_, rfl⟩
  mul _ _ := ⟨_, rfl⟩
  div x y hy := ⟨x / y, if_neg (by rw [hy]; decide)⟩
  pow x y := by
    simp only [machine]
    split
    · exact .inr rfl
    · exact .inl (givesOrRefuses_refusing _ _)
  sqrt _ hx := gives_refusing (decide_eq_false hx) _
  sin _ := givesOrRefuses_refusing _ _
  cos _ := givesOrRefuses_refusing _ _
  tan _ := givesOrRefuses_refusing _ _
  log10 _ hx := gives_refusing (decide_eq_false hx) _
  ln _ hx := gives_refusing (decide_eq_false hx) _

end Reckoner
