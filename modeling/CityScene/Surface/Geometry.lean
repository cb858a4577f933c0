import CityScene.Surface.Polygon

/-!
# Geometries

The polygons of an object at one level of detail, and template geometries that are placed in the
world by a transformation.
-/

namespace CityScene

/-- The outermost geometry element that polygons came in. -/
inductive GeometryKind
  | solid
  | multiSolid
  | compositeSolid
  | multiSurface
  | compositeSurface
  | triangulatedSurface
  | tin
  | surface
  | polygon
  | shell
deriving DecidableEq, Repr

namespace GeometryKind

def name : GeometryKind → String
  | solid => "Solid"
  | multiSolid => "MultiSolid"
  | compositeSolid => "CompositeSolid"
  | multiSurface => "MultiSurface"
  | compositeSurface => "CompositeSurface"
  | triangulatedSurface => "TriangulatedSurface"
  | tin => "Tin"
  | surface => "Surface"
  | polygon => "Polygon"
  | shell => "Shell"

/-- The kind that an element name stands for. -/
def ofElementName? : String → Option GeometryKind
  | "Solid" => some solid
  | "MultiSolid" => some multiSolid
  | "CompositeSolid" => some compositeSolid
  | "MultiSurface" => some multiSurface
  | "CompositeSurface" => some compositeSurface
  | "TriangulatedSurface" => some triangulatedSurface
  | "Tin" | "TIN" => some tin
  | "Surface" | "OrientableSurface" => some surface
  | "Polygon" => some polygon
  | "Shell" => some shell
  | _ => none

end GeometryKind

structure Geometry where
  id : Option String
  /-- Level of detail. -/
  lod : Nat
  kind : GeometryKind
  /-- Name of the coordinate reference system, if known. -/
  srs : Option String
  polygons : List Polygon
deriving DecidableEq, Repr

namespace Geometry

def envelope (g : Geometry) : Envelope Float :=
  g.polygons.foldl (fun e p => e.union p.envelope) .empty

/-- The number of triangles of all polygons that have a mesh. -/
def triangleCount (g : Geometry) : Nat :=
  (g.polygons.filterMap (·.mesh?)).foldl (fun n mesh => n + mesh.triangles.length) 0

/-- The geometry with every polygon changed. -/
def mapPolygons (g : Geometry) (change : Polygon → Polygon) : Geometry :=
  { g with polygons := g.polygons.map change }

end Geometry

/-- A four by four matrix, given by its rows. -/
structure Matrix4 where
  entry : Fin 4 → Fin 4 → Float

namespace Matrix4

def identity : Matrix4 :=
  ⟨fun i j => if i = j then 1.0 else 0.0⟩

/-- The matrix with the given entries, row by row; missing entries are zero. -/
def ofRows (entries : List Float) : Matrix4 :=
  ⟨fun i j => entries.getD (4 * i.val + j.val) 0.0⟩

/-- The entries, row by row. -/
def toList (m : Matrix4) : List Float :=
  (List.finRange 4).flatMap fun i => (List.finRange 4).map fun j => m.entry i j

/-- The point that a homogeneous transformation maps a point to.  The result is divided by its
fourth component unless that is zero. -/
def transformPoint (m : Matrix4) (p : Vec3 Float) : Vec3 Float :=
  let row (i : Fin 4) : Float :=
    m.entry i 0 * p.x + m.entry i 1 * p.y + m.entry i 2 * p.z + m.entry i 3
  let q : Vec3 Float := ⟨row 0, row 1, row 2⟩
  if row 3 != 0 then q.shrink (row 3) else q

end Matrix4

/-- The geometry that an implicit geometry places. -/
inductive Template
  | none
  | inline (geometry : Geometry)
  /-- A template defined elsewhere, by identifier. -/
  | reference (id : String)

/-- A template geometry, placed by a transformation and then moved to a reference point. -/
structure ImplicitGeometry where
  lod : Nat
  mimeType : Option String := none
  /-- A library object outside the document. -/
  libraryObject : Option String := none
  transformation : Matrix4 := .identity
  referencePoint : Vec3 Float := ⟨0, 0, 0⟩
  template : Template := .none

namespace ImplicitGeometry

/-- Where a point of the template lies in the world. -/
def place (g : ImplicitGeometry) (p : Vec3 Float) : Vec3 Float :=
  g.transformation.transformPoint p + g.referencePoint

/-- The points that an implicit geometry takes up: its reference point, and the placed points of a
template that is given inline. -/
def worldPoints (g : ImplicitGeometry) : List (Vec3 Float) :=
  match g.template with
  | .inline geometry =>
    g.referencePoint ::
      (geometry.polygons.flatMap fun p => p.rings.flatMap (·.points)).map g.place
  | _ => [g.referencePoint]

def envelope (g : ImplicitGeometry) : Envelope Float :=
  Envelope.ofPoints g.worldPoints

end ImplicitGeometry

end CityScene
