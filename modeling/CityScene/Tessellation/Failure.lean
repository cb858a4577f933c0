import CityScene.Decimal.Shortest

/-!
# Why a polygon has no triangles

The causes for which tessellation refuses a polygon, and their wording.  Ring `0` is the exterior
and ring `i + 1` is hole `i`.
-/

namespace CityScene.Tessellation

/-- Why triangles that were found are not the polygon's. -/
inductive Mismatch (K : Type)
  | noTriangles
  /-- The areas of the triangles do not add up to the area between the rings. -/
  | area (triangles polygon : K)
  /-- A reason stated in words. -/
  | stated (reason : String)
deriving DecidableEq, Repr

inductive Failure (K : Type)
  | tooFewPoints (ring count : Nat)
  | nonFiniteCoordinate (ring : Nat)
  | degenerate
  | selfIntersection (ring : Nat)
  | holeOutsideExterior (hole : Nat)
  | holeCoincidentWithExterior (hole : Nat)
  | overlappingHoles (first second : Nat)
  | triangulationFailed (mismatch : Mismatch K)
deriving DecidableEq, Repr

def Mismatch.message : Mismatch Float → String
  | .noTriangles => "Earcut returned no triangles"
  | .area triangles polygon =>
    s!"Triangle area {Decimal.text triangles} does not match polygon area {Decimal.text polygon}"
  | .stated reason => reason

def Failure.message : Failure Float → String
  | .tooFewPoints ring count =>
    s!"Ring {ring} has too few distinct points: {count} (minimum 3 required)"
  | .nonFiniteCoordinate ring => s!"Ring {ring} has a non-finite coordinate"
  | .degenerate => "Exterior ring is degenerate (zero area)"
  | .selfIntersection ring => s!"Ring {ring} intersects itself"
  | .holeOutsideExterior hole => s!"Hole {hole} lies outside the exterior ring"
  | .holeCoincidentWithExterior hole => s!"Hole {hole} coincides with the exterior ring"
  | .overlappingHoles first second => s!"Holes {first} and {second} overlap"
  | .triangulationFailed mismatch => s!"Triangulation failed: {mismatch.message}"

end CityScene.Tessellation
