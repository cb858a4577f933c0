import CityScene.Space.Vec

/-!
# Plane bases

A plane through a point, with two axes of length one in it.  Projecting to the axes flattens a ring
for triangulation; for a unit normal the axes and the normal form a right-handed system.
-/

namespace CityScene

structure PlaneBasis (K : Type) where
  /-- The point that projects to the origin. -/
  origin : Vec3 K
  normal : Vec3 K
  u : Vec3 K
  v : Vec3 K
deriving DecidableEq, Repr

namespace PlaneBasis

variable {K : Type} [Scalar K]

/-- The world axis least parallel to a vector, which keeps cross products with it long. -/
def referenceAxis (n : Vec3 K) : Vec3 K :=
  let x := Scalar.abs n.x
  let y := Scalar.abs n.y
  let z := Scalar.abs n.z
  if x ≤ y ∧ x ≤ z then ⟨1, 0, 0⟩ else if y ≤ z then ⟨0, 1, 0⟩ else ⟨0, 0, 1⟩

/-- The basis at a point for a unit normal. -/
def ofNormal (origin normal : Vec3 K) : PlaneBasis K :=
  let u := (normal.cross (referenceAxis normal)).normalize
  let v := (normal.cross u).normalize
  ⟨origin, normal, u, v⟩

/-- The plane coordinates of a point. -/
def project (b : PlaneBasis K) (p : Vec3 K) : Vec2 K :=
  ⟨(p - b.origin).dot b.u, (p - b.origin).dot b.v⟩

def projectRing (b : PlaneBasis K) (points : List (Vec3 K)) : List (Vec2 K) :=
  points.map b.project

end PlaneBasis

end CityScene
