/-!
# Floating-point primitives

The operations on doubles that evaluation is made of, as one record, so that a law of evaluation
can be stated for any choice of them. `FloatOps.machine` is the choice of the program: binary64
arithmetic and the elementary functions of the machine.
-/

namespace Reckoner

/-- A choice of floating-point primitives. -/
structure FloatOps where
  /-- The double of an integer. -/
  ofInt : Int → Float
  /-- The sum. -/
  add : Float → Float → Float
  /-- The difference. -/
  sub : Float → Float → Float
  /-- The product. -/
  mul : Float → Float → Float
  /-- The quotient. -/
  div : Float → Float → Float
  /-- The power, infinite or not-a-number where no finite power exists. -/
  pow : Float → Float → Float
  /-- The opposite. -/
  neg : Float → Float
  /-- The magnitude. -/
  abs : Float → Float
  /-- The square root. -/
  sqrt : Float → Float
  /-- The sine. -/
  sin : Float → Float
  /-- The cosine. -/
  cos : Float → Float
  /-- The tangent. -/
  tan : Float → Float
  /-- The logarithm to base ten. -/
  log10 : Float → Float
  /-- The natural logarithm. -/
  ln : Float → Float

/-- Binary64 arithmetic; an integer is rounded to the nearest double. -/
def FloatOps.machine : FloatOps where
  ofInt := Float.ofInt
  add := Float.add
  sub := Float.sub
  mul := Float.mul
  div := Float.div
  pow := Float.pow
  neg := Float.neg
  abs := Float.abs
  sqrt := Float.sqrt
  sin := Float.sin
  cos := Float.cos
  tan := Float.tan
  log10 := Float.log10
  ln := Float.log

end Reckoner
