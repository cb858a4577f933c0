import CityScene.Space.Envelope
import CityScene.Space.Plane
import CityScene.Space.Mesh
import CityScene.Tessellation.Topology
import CityScene.Tessellation.EarClip

/-!
# Tessellation

A planar or nearly planar polygon in space becomes a triangle mesh.  Its rings are flattened along
Newell's normal of the exterior, checked against each other, and triangulated in the plane; then
every triangle is turned counter-clockwise around that normal, and their areas must add up to the
area between the rings.

`tessellateWith` takes the triangulation as an argument.  It only relies on getting triangles over
the indices of the points it hands over; `tessellate` is the instance with ear clipping.
-/

namespace CityScene.Tessellation

/-- Relative tolerance of coincidence and orientation. -/
def relativeEpsilon {K : Type} [Scalar K] : K := 1e-10

/-- Relative tolerance between the area of the triangles and that of the polygon. -/
def areaTolerance {K : Type} [Scalar K] : K := 1e-6

variable {K : Type} [Scalar K]

/-- The diagonal of a ring's bounding box, to which tolerances are relative. -/
def ringScale (points : List (Vec3 K)) : K :=
  let diagonal := ((Envelope.ofPoints points).size?.map Vec3.norm).getD 0
  Scalar.larger diagonal Scalar.minPositive

/-- The reason to refuse a ring on its own, if there is one. -/
def ringFault? (points : List (Vec3 K)) (ring : Nat) : Option (Failure K) :=
  if !points.all Vec3.isFinite then some (.nonFiniteCoordinate ring)
  else if distinctCount points < 3 then some (.tooFewPoints ring (distinctCount points))
  else none

/-- The indices at which the holes start among the points of all rings. -/
def holeStarts {α : Type} (start : Nat) : List (List α) → List Nat
  | [] => []
  | hole :: rest => start :: holeStarts (start + hole.length) rest

/-- The signed area of a triangle over indexed plane points, zero if an index is out of range. -/
def signedAreaAt (points : List (Vec2 K)) (t : Triangle) : K :=
  match t.corners? points with
  | some (a, b, c) => triangleSignedArea a b c
  | none => 0

/-- Turns a triangle counter-clockwise. -/
def orient (points : List (Vec2 K)) (t : Triangle) : Triangle :=
  if signedAreaAt points t < 0 then t.flip else t

/-- The area between an exterior ring and its holes. -/
def areaBetween (exterior : List (Vec2 K)) (holes : List (List (Vec2 K))) : K :=
  Scalar.abs (ringSignedArea exterior) -
    holes.foldl (fun sum hole => sum + Scalar.abs (ringSignedArea hole)) 0

/-- The mesh normals: the polygon's own, or smooth ones with the polygon's own as a fallback. -/
def meshNormals (smooth : Bool) (normal : Vec3 K) (vertices : List (Vec3 K))
    (triangles : List Triangle) : Normals K :=
  if smooth then
    .perVertex ((vertexNormals vertices triangles).map fun n => if n == 0 then normal else n)
  else .uniform normal

/-- The mesh of a polygon, its rings triangulated by the given function. -/
def tessellateWith (triangulate : List (Vec2 K) → List Nat → List Triangle)
    (exterior : List (Vec3 K)) (holes : List (List (Vec3 K))) (smooth : Bool) :
    Except (Failure K) (Mesh K) := do
  if let some fault := (exterior :: holes).zipIdx.findSome? fun (ring, i) => ringFault? ring i then
    throw fault
  let scale := ringScale exterior
  let normal := newellNormal exterior
  if normal.norm ≤ relativeEpsilon * scale * scale then throw .degenerate
  let normal := normal.normalize
  let basis := PlaneBasis.ofNormal (exterior.headD 0) normal
  let exterior2 := basis.projectRing exterior
  let holes2 := holes.map basis.projectRing
  checkTopology exterior2 holes2 (relativeEpsilon * scale)
  let points := exterior2 ++ holes2.flatten
  let found := triangulate points (holeStarts exterior.length holes)
  if found.isEmpty then throw (.triangulationFailed .noTriangles)
  let area := found.foldl (fun sum t => sum + Scalar.abs (signedAreaAt points t)) 0
  let expected := areaBetween exterior2 holes2
  let tolerance := areaTolerance * Scalar.larger (Scalar.abs expected) Scalar.minPositive
  if tolerance < Scalar.abs (area - expected) then
    throw (.triangulationFailed (.area area expected))
  let vertices := exterior ++ holes.flatten
  let triangles := found.map (orient points)
  return ⟨vertices, triangles, meshNormals smooth normal vertices triangles⟩

/-- The mesh of a polygon, triangulated by ear clipping. -/
def tessellate (exterior : List (Vec3 Float)) (holes : List (List (Vec3 Float))) (smooth : Bool) :
    Except (Failure Float) (Mesh Float) :=
  tessellateWith earClip exterior holes smooth

end CityScene.Tessellation
