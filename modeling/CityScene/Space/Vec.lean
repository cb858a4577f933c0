import CityScene.Scalar

/-!
# Points and vectors

`Vec2` and `Vec3` stand for points as well as for the vectors between them.  Every operation fixes
the order in which its terms are added, since rounding makes that order part of the result.
-/

namespace CityScene

/-- A point or vector of a projection plane. -/
structure Vec2 (K : Type) where
  x : K
  y : K
deriving DecidableEq, Repr

/-- A point or vector of space. -/
structure Vec3 (K : Type) where
  x : K
  y : K
  z : K
deriving DecidableEq, Repr

variable {K : Type} [Scalar K]

namespace Vec2

instance : BEq (Vec2 K) where
  beq p q := p.x == q.x && p.y == q.y

instance : Sub (Vec2 K) where
  sub p q := ⟨p.x - q.x, p.y - q.y⟩

def dot (p q : Vec2 K) : K :=
  p.x * q.x + p.y * q.y

def norm (p : Vec2 K) : K :=
  Scalar.sqrt (p.dot p)

end Vec2

namespace Vec3

instance : BEq (Vec3 K) where
  beq p q := p.x == q.x && p.y == q.y && p.z == q.z

instance : Zero (Vec3 K) where
  zero := ⟨0, 0, 0⟩

instance : Add (Vec3 K) where
  add p q := ⟨p.x + q.x, p.y + q.y, p.z + q.z⟩

instance : Sub (Vec3 K) where
  sub p q := ⟨p.x - q.x, p.y - q.y, p.z - q.z⟩

/-- The vector stretched by a factor. -/
def scale (p : Vec3 K) (k : K) : Vec3 K :=
  ⟨p.x * k, p.y * k, p.z * k⟩

/-- The vector with every component divided. -/
def shrink (p : Vec3 K) (k : K) : Vec3 K :=
  ⟨p.x / k, p.y / k, p.z / k⟩

def dot (p q : Vec3 K) : K :=
  p.x * q.x + p.y * q.y + p.z * q.z

def cross (p q : Vec3 K) : Vec3 K :=
  ⟨p.y * q.z - p.z * q.y, p.z * q.x - p.x * q.z, p.x * q.y - p.y * q.x⟩

def norm (p : Vec3 K) : K :=
  Scalar.sqrt (p.dot p)

/-- The vector of length one in the same direction, for a vector that is not zero. -/
def normalize (p : Vec3 K) : Vec3 K :=
  p.shrink p.norm

/-- The vector of length one in the same direction, and a vector without length unchanged. -/
def normalizeOrSelf (p : Vec3 K) : Vec3 K :=
  if 0 < p.norm then p.shrink p.norm else p

/-- All three coordinates are finite. -/
def isFinite (p : Vec3 K) : Bool :=
  Scalar.isFinite p.x && Scalar.isFinite p.y && Scalar.isFinite p.z

/-- The same point, also where coordinates are undefined. -/
def same (p q : Vec3 K) : Bool :=
  Scalar.same p.x q.x && Scalar.same p.y q.y && Scalar.same p.z q.z

end Vec3

/-- How many different points a list holds. -/
def distinctCount : List (Vec3 K) → Nat
  | [] => 0
  | p :: rest => if rest.any (p.same ·) then distinctCount rest else distinctCount rest + 1

end CityScene
