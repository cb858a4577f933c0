import CityScene.Appearance.Basic
import CityScene.Surface.Ring
import CityScene.Tessellation.Basic

/-!
# Polygons

A face with an exterior ring and holes.  Beside its rings a polygon carries the state of its mesh
and what appearances bind to it, one binding per theme.
-/

namespace CityScene

open Tessellation (Failure)

/-- Whether a polygon has been tessellated, and what came of it. -/
inductive MeshState
  | pending
  | ready (mesh : Mesh Float)
  | failed (failure : Failure Float)
deriving DecidableEq, Repr

/-- What one theme binds to a polygon. -/
structure Binding where
  theme : String
  material : Option String := none
  texture : Option String := none
  /-- Texture coordinates for each ring, exterior first. -/
  coordinates : List (List (Vec2 Float)) := []
deriving DecidableEq, Repr

structure Polygon where
  id : Option String
  exterior : LinearRing
  interiors : List LinearRing
  bindings : List Binding := []
  mesh : MeshState := .pending
deriving DecidableEq, Repr

namespace Polygon

/-- The exterior followed by the holes. -/
def rings (p : Polygon) : List LinearRing :=
  p.exterior :: p.interiors

def envelope (p : Polygon) : Envelope Float :=
  p.exterior.envelope

def isTessellated (p : Polygon) : Bool :=
  match p.mesh with
  | .pending => false
  | _ => true

def mesh? (p : Polygon) : Option (Mesh Float) :=
  match p.mesh with
  | .ready mesh => some mesh
  | _ => none

/-- What tessellating a polygon that is still pending leaves. -/
def tessellation (p : Polygon) (smooth : Bool) : MeshState :=
  match Tessellation.tessellate p.exterior.points (p.interiors.map (·.points)) smooth with
  | .ok mesh => .ready mesh
  | .error failure => .failed failure

/-- Tessellates the polygon unless that has been done before. -/
def tessellate (p : Polygon) (smooth : Bool) : Polygon :=
  match p.mesh with
  | .pending => { p with mesh := p.tessellation smooth }
  | _ => p

/-- Why the polygon has no mesh, after tessellation. -/
def failure? (p : Polygon) : Option (Failure Float) :=
  match p.mesh with
  | .failed failure => some failure
  | _ => none

/-- What a theme binds, if it binds anything. -/
def binding? (p : Polygon) (theme : String) : Option Binding :=
  p.bindings.find? (·.theme == theme)

/-- Changes the binding of a theme in place, or starts a new one at the end. -/
def updateBinding (theme : String) (change : Binding → Binding) : List Binding → List Binding
  | [] => [change { theme }]
  | b :: rest => if b.theme == theme then change b :: rest else b :: updateBinding theme change rest

def bindMaterial (p : Polygon) (theme material : String) : Polygon :=
  let bind (b : Binding) := { b with material := some material }
  { p with bindings := updateBinding theme bind p.bindings }

/-- Drops a coordinate that closes a ring with this many points. -/
def openCoordinates (points : Nat) (coordinates : List (Vec2 Float)) : List (Vec2 Float) :=
  match coordinates.head?, coordinates.getLast? with
  | some first, some last =>
    if coordinates.length = points + 1 && first == last then coordinates.dropLast else coordinates
  | _, _ => coordinates

/-- Applies a function to the coordinates of each ring, as far as there are rings. -/
def openEach : List LinearRing → List (List (Vec2 Float)) → List (List (Vec2 Float))
  | ring :: rings, c :: rest => openCoordinates ring.length c :: openEach rings rest
  | _, rest => rest

/-- Binds a texture with coordinates for each ring.  A coordinate that closes a ring is dropped, so
that every point of the ring has one. -/
def bindTexture (p : Polygon) (theme texture : String) (coordinates : List (List (Vec2 Float))) :
    Polygon :=
  let bind (b : Binding) :=
    { b with texture := some texture, coordinates := openEach p.rings coordinates }
  { p with bindings := updateBinding theme bind p.bindings }

/-- The texture coordinates of a theme in the order of the mesh vertices, if a texture is bound and
every point of every ring has a coordinate. -/
def textureCoordinates? (p : Polygon) (theme : String) : Option (List (Vec2 Float)) := do
  let b ← p.binding? theme
  let _ ← b.texture
  if b.coordinates.map (·.length) = p.rings.map (·.length) then some b.coordinates.flatten else none

end Polygon

end CityScene
