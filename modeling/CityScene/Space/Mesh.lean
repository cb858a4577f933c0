import CityScene.Space.Ring

/-!
# Triangle meshes

A mesh is a list of vertices and triangles over their indices, with one normal for all or one per
vertex.  Triangles with an index out of range count for nothing, neither in areas nor in normals.
-/

namespace CityScene

/-- Three vertex indices. -/
structure Triangle where
  a : Nat
  b : Nat
  c : Nat
deriving DecidableEq, Repr

namespace Triangle

/-- The triangles of a flat index list; one or two indices left over are dropped. -/
def ofIndices : List Nat → List Triangle
  | a :: b :: c :: rest => ⟨a, b, c⟩ :: ofIndices rest
  | _ => []

/-- The flat index list of some triangles. -/
def indices (triangles : List Triangle) : List Nat :=
  triangles.flatMap fun t => [t.a, t.b, t.c]

/-- The triangle with the opposite orientation. -/
def flip (t : Triangle) : Triangle :=
  ⟨t.a, t.c, t.b⟩

/-- The three corner points, if all indices are in range. -/
def corners? {α : Type} (t : Triangle) (points : List α) : Option (α × α × α) :=
  match points[t.a]?, points[t.b]?, points[t.c]? with
  | some a, some b, some c => some (a, b, c)
  | _, _, _ => none

/-- How many of the three corners are at a vertex. -/
def cornersAt (t : Triangle) (vertex : Nat) : Nat :=
  [t.a, t.b, t.c].count vertex

end Triangle

variable {K : Type} [Scalar K]

/-- Sum of the triangle areas. -/
def meshArea (vertices : List (Vec3 K)) (triangles : List Triangle) : K :=
  (triangles.filterMap (·.corners? vertices)).foldl
    (fun sum t => sum + triangleArea t.1 t.2.1 t.2.2) 0

/-- What a triangle adds to the normal at a vertex: its area normal, once for each corner there. -/
def addCornerNormals (vertices : List (Vec3 K)) (vertex : Nat) (sum : Vec3 K) (t : Triangle) :
    Vec3 K :=
  match t.corners? vertices with
  | none => sum
  | some (a, b, c) =>
    let n := triangleNormal a b c
    if 0 < n.norm then (List.replicate (t.cornersAt vertex) n).foldl (· + ·) sum else sum

/-- For each vertex the unit normal of the triangles around it, weighted by their areas, and zero
where no triangle with an area touches the vertex. -/
def vertexNormals (vertices : List (Vec3 K)) (triangles : List Triangle) : List (Vec3 K) :=
  (List.range vertices.length).map fun vertex =>
    (triangles.foldl (addCornerNormals vertices vertex) 0).normalizeOrSelf

inductive Normals (K : Type)
  /-- One unit normal for every triangle. -/
  | uniform (normal : Vec3 K)
  /-- One unit normal per vertex. -/
  | perVertex (normals : List (Vec3 K))
deriving DecidableEq, Repr

/-- The triangles of one polygon.  The vertices are the points of its rings, exterior first. -/
structure Mesh (K : Type) where
  vertices : List (Vec3 K)
  triangles : List Triangle
  normals : Normals K
deriving DecidableEq, Repr

namespace Mesh

def isEmpty (m : Mesh K) : Bool :=
  m.triangles.isEmpty

def area (m : Mesh K) : K :=
  meshArea m.vertices m.triangles

/-- The corner points of a triangle. -/
def corners? (m : Mesh K) (triangle : Nat) : Option (Vec3 K × Vec3 K × Vec3 K) :=
  m.triangles[triangle]?.bind (·.corners? m.vertices)

/-- The normal to use at a vertex. -/
def normalAt? (m : Mesh K) (vertex : Nat) : Option (Vec3 K) :=
  match m.normals with
  | .uniform normal => if vertex < m.vertices.length then some normal else none
  | .perVertex normals => normals[vertex]?

end Mesh

end CityScene
