import CityScene.Space.Vec

/-!
# Areas and normals of rings

A ring is a list of points, closed from the last back to the first.  Its edges are the pairs of
neighbours in that cycle.  The signed area of a plane ring is the shoelace sum over its edges, and
the normal of a ring in space is Newell's sum, whose length is twice the area the ring bounds.
-/

namespace CityScene

/-- The edges of a ring: each point with its successor, the last with the first. -/
def ringEdges {α : Type} : List α → List (α × α)
  | [] => []
  | p :: rest => (p :: rest).zip (rest ++ [p])

variable {K : Type} [Scalar K]

/-- Signed area of a plane triangle, positive when counter-clockwise. -/
def triangleSignedArea (a b c : Vec2 K) : K :=
  ((b.x - a.x) * (c.y - a.y) - (b.y - a.y) * (c.x - a.x)) * 0.5

/-- Signed area of a plane ring, positive when counter-clockwise. -/
def ringSignedArea (points : List (Vec2 K)) : K :=
  if points.length < 3 then 0
  else (ringEdges points).foldl (fun sum e => sum + (e.1.x * e.2.y - e.2.x * e.1.y)) 0 * 0.5

/-- What one edge adds to Newell's normal. -/
def newellTerm (p q : Vec3 K) : Vec3 K :=
  ⟨(p.y - q.y) * (p.z + q.z), (p.z - q.z) * (p.x + q.x), (p.x - q.x) * (p.y + q.y)⟩

/-- Newell's normal of a ring: it stands on the plane that fits the ring best, and its length is
twice the area of the ring's projection to that plane. -/
def newellNormal (points : List (Vec3 K)) : Vec3 K :=
  (ringEdges points).foldl (fun sum e => sum + newellTerm e.1 e.2) 0

/-- The area that a plane ring in space bounds. -/
def ringArea (points : List (Vec3 K)) : K :=
  (newellNormal points).norm * 0.5

/-- Twice the area of a triangle in space, along its normal. -/
def triangleNormal (a b c : Vec3 K) : Vec3 K :=
  (b - a).cross (c - a)

/-- The unit normal of a triangle, zero if the triangle has no area. -/
def faceNormal (a b c : Vec3 K) : Vec3 K :=
  let n := triangleNormal a b c
  if 0 < n.norm then n.shrink n.norm else 0

def triangleArea (a b c : Vec3 K) : K :=
  (triangleNormal a b c).norm * 0.5

end CityScene
