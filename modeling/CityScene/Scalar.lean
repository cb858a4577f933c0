/-!
# Scalars

The number type that coordinates are made of.  Geometry is written once, for any `Scalar`, and runs
at `Float`; the same definitions can be read at an exact field, where the arithmetic does not round.
So nothing here promises a law: a `Scalar` is only what the formulas need.
-/

namespace CityScene

/-- What the geometric formulas need of their numbers. -/
class Scalar (K : Type) extends Add K, Sub K, Mul K, Div K, Neg K, Zero K, One K, BEq K, LT K, LE K,
    OfScientific K where
  decLt : DecidableLT K
  decLe : DecidableLE K
  abs : K → K
  sqrt : K → K
  /-- Neither infinite nor undefined. -/
  isFinite : K → Bool
  /-- The least positive normal number, a floor under relative tolerances. -/
  minPositive : K

attribute [reducible, instance] Scalar.decLt Scalar.decLe

instance : Scalar Float where
  zero := 0.0
  one := 1.0
  decLt := inferInstance
  decLe := inferInstance
  abs := Float.abs
  sqrt := Float.sqrt
  isFinite := Float.isFinite
  minPositive := Float.ofBits 0x0010000000000000

namespace Scalar

variable {K : Type} [Scalar K]

/-- The larger of two numbers; an undefined one gives way. -/
def larger (a b : K) : K :=
  if a < b then b else if a == a then a else b

/-- The smaller of two numbers; an undefined one gives way. -/
def smaller (a b : K) : K :=
  if b < a then b else if a == a then a else b

/-- The same coordinate: equal numbers, or both undefined. -/
def same (a b : K) : Bool :=
  a == b || (a != a && b != b)

end Scalar

end CityScene
