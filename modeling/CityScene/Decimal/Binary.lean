/-!
# The exact value of a float

A finite float is a sign, a natural number `m` and an exponent `q`, and its value is `m * 2 ^ q`.
`Binary.ofFloat` reads them off the bits.  Everything exact about floats goes through them: their
shortest decimal text (`Decimal.Shortest`), whether they are whole, and their integer part.
-/

namespace CityScene.Decimal

/-- A finite float: `m * 2 ^ q`, negated when `negative` is set. -/
structure Binary where
  negative : Bool
  m : Nat
  q : Int
  /-- The gap to the next smaller magnitude is half the gap to the next larger one. -/
  narrowBelow : Bool
deriving DecidableEq, Repr

namespace Binary

/-- The parts of a bit pattern whose exponent field is not all ones. -/
def ofBits (bits : UInt64) : Binary :=
  let negative := bits >>> 63 == 1
  let exponent := ((bits >>> 52) &&& 0x7FF).toNat
  let fraction := (bits &&& 0xFFFFFFFFFFFFF).toNat
  if exponent = 0 then ⟨negative, fraction, -1074, false⟩
  else
    let narrowBelow := fraction == 0 && exponent != 1
    ⟨negative, 0x10000000000000 + fraction, (exponent : Int) - 1075, narrowBelow⟩

/-- The parts of a finite float. -/
def ofFloat (x : Float) : Binary :=
  ofBits x.toBits

/-- Whether the value is a whole number. -/
def isWhole (b : Binary) : Bool :=
  b.m % Nat.pow 2 (-b.q).toNat == 0

/-- The value with its fraction cut off. -/
def truncate (b : Binary) : Int :=
  let magnitude := b.m * Nat.pow 2 b.q.toNat / Nat.pow 2 (-b.q).toNat
  if b.negative then -(magnitude : Int) else magnitude

end Binary

/-- The integer part of a float, toward zero.  Infinities and NaN have none and give zero. -/
def integerPart (x : Float) : Int :=
  if x.isFinite then (Binary.ofFloat x).truncate else 0

end CityScene.Decimal
