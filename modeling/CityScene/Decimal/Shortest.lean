import CityScene.Decimal.Binary

/-!
# The shortest decimal text of a float

Of all decimals that read back as a given float, `shortest` takes one with the fewest digits, and
of those the nearest to the exact value; a tie goes up.  The reals that round to `m * 2 ^ q` run
from halfway to the value below to halfway to the value above, ends included exactly when `m` is
even, and everything is compared in naturals after clearing denominators.

For `n = 1, 2, …, 17` digits the value lies between two neighbours on the grid `10 ^ (k - n)`, where
`k` is the number of digits before the decimal point.  The first grid with a neighbour that reads
back wins.  `text` then writes the decimal positionally: no exponent, no point in a whole number.
-/

namespace CityScene.Decimal

/-- A decimal: `digits * 10 ^ exponent`. -/
structure Scaled where
  digits : Nat
  exponent : Int
deriving DecidableEq, Repr

/-- How many decimal digits `n` has. -/
def digitCount (n : Nat) : Nat :=
  (Nat.toDigits 10 n).length

namespace Binary

/-- The exponent of the power of ten just above the value, for a value that is not zero.
No finite float is below `10 ^ -400`. -/
def magnitude (b : Binary) : Int :=
  (digitCount (b.m * Nat.pow 2 b.q.toNat * Nat.pow 10 400 / Nat.pow 2 (-b.q).toNat) : Int) - 400

/-- The neighbour of the value on the grid `10 ^ e` that reads back, the nearer one if both do. -/
def onGrid? (b : Binary) (e : Int) : Option Nat :=
  -- quarters of the last binary place put both ends of the interval on whole numbers
  let up := Nat.pow 2 (b.q - 2).toNat * Nat.pow 10 (-e).toNat
  let unit := Nat.pow 2 (2 - b.q).toNat * Nat.pow 10 e.toNat
  let value := 4 * b.m * up
  let low := (if b.narrowBelow then 4 * b.m - 1 else 4 * b.m - 2) * up
  let high := (4 * b.m + 2) * up
  let readsBack (d : Nat) : Bool :=
    if b.m % 2 = 0 then low ≤ d * unit && d * unit ≤ high else low < d * unit && d * unit < high
  let below := value / unit
  match readsBack below, readsBack (below + 1) with
  | true, true => if 2 * value < (2 * below + 1) * unit then some below else some (below + 1)
  | true, false => some below
  | false, true => some (below + 1)
  | false, false => none

/-- The shortest decimal of a value that is not zero.  Seventeen digits always suffice; the exact
value stands behind them as a last resort. -/
def shortest (b : Binary) : Scaled :=
  let k := b.magnitude
  let tried := (List.range 17).findSome? fun i : Nat =>
    (b.onGrid? (k - (i + 1 : Nat))).map fun d => Scaled.mk d (k - (i + 1 : Nat))
  tried.getD ⟨b.m * Nat.pow 2 b.q.toNat * Nat.pow 5 (-b.q).toNat, min b.q 0⟩

end Binary

/-- Zeros after the decimal point that end the digits carry nothing. -/
def dropZeros (digits : Nat) : Nat → Scaled
  | 0 => ⟨digits, 0⟩
  | places + 1 =>
    if digits % 10 = 0 then dropZeros (digits / 10) places else ⟨digits, -(places + 1 : Nat)⟩

/-- Positional digits of a decimal, with a point only where a fraction follows. -/
def Scaled.positional (s : Scaled) : List Char :=
  if 0 ≤ s.exponent then Nat.toDigits 10 (s.digits * Nat.pow 10 s.exponent.toNat)
  else
    let s := dropZeros s.digits (-s.exponent).toNat
    let places := (-s.exponent).toNat
    let digits := Nat.toDigits 10 s.digits
    let padded := List.replicate (places + 1 - digits.length) '0' ++ digits
    if places = 0 then digits
    else padded.take (padded.length - places) ++ '.' :: padded.drop (padded.length - places)

/-- The text of a float: the fewest digits that read back, positional; zero keeps its sign. -/
def text (x : Float) : String :=
  if x.isNaN then "NaN"
  else
    let b := Binary.ofFloat x
    let magnitude :=
      if x.isInf then ['i', 'n', 'f']
      else if b.m = 0 then ['0']
      else b.shortest.positional
    String.ofList (if b.negative then '-' :: magnitude else magnitude)

end CityScene.Decimal
