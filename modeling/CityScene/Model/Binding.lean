import CityScene.Model.Basic

/-!
# Binding appearances to polygons

Every appearance of the model's own registry paints polygons under its theme.  The paints are put
down in the order of registration, then of the surface data in the appearance, then of its targets;
under one theme a later material replaces an earlier one, and so does a later texture.
-/

namespace CityScene

/-- What is put on a polygon under a theme. -/
inductive Paint
  | material (theme id : String)
  | texture (theme id : String) (rings : List RingCoordinates)
deriving DecidableEq, Repr

namespace Polygon

/-- The first ring that an entry of texture coordinates names. -/
def namedRing? (p : Polygon) (entry : RingCoordinates) : Option Nat :=
  entry.ring.bind fun name => p.rings.findIdx? (·.id == some (Model.bareId name))

/-- Entries of texture coordinates on their way to the rings. -/
structure Deal where
  /-- For each ring, what it has received. -/
  places : List (Option (List (Vec2 Float)))
  /-- The coordinates of the entries that name no ring. -/
  stray : List (List (Vec2 Float))

/-- Hands an entry to the ring that it names, in place of an earlier one. -/
def deal (p : Polygon) (d : Deal) (entry : RingCoordinates) : Deal :=
  match p.namedRing? entry with
  | some i => { d with places := d.places.set i (some entry.coordinates) }
  | none => { d with stray := d.stray ++ [entry.coordinates] }

/-- Passes by a ring, which takes the next stray coordinates if it has received none. -/
def Deal.fill (d : Deal) (place : Option (List (Vec2 Float))) : Deal :=
  match place with
  | some coordinates => { d with places := d.places ++ [some coordinates] }
  | none => ⟨d.places ++ [d.stray.head?], d.stray.tail⟩

/-- Texture coordinates in the order of the rings.  A ring gets the last entry that names it;
entries that name no ring fill the other rings in order. -/
def arrangeCoordinates (p : Polygon) (entries : List RingCoordinates) :
    List (List (Vec2 Float)) :=
  let named := entries.foldl p.deal ⟨List.replicate p.rings.length none, []⟩
  let filled := named.places.foldl Deal.fill ⟨[], named.stray⟩
  filled.places.map (·.getD [])

/-- Puts one paint on a polygon. -/
def paint (p : Polygon) : Paint → Polygon
  | .material theme id => p.bindMaterial theme id
  | .texture theme id rings => p.bindTexture theme id (p.arrangeCoordinates rings)

end Polygon

namespace SurfaceData

/-- The polygons that surface data targets, each with its paint under a theme. -/
def paints (d : SurfaceData) (theme : String) : List (String × Paint) :=
  d.targets.map fun target =>
    match d.surfacing with
    | .material _ => (target.polygon, .material theme d.id)
    | .texture _ => (target.polygon, .texture theme d.id target.rings)

end SurfaceData

namespace Model

/-- The polygons that an appearance paints, each with its paint. -/
def appearancePaints (m : Model) (a : Appearance) : List (String × Paint) :=
  a.surfaceData.flatMap fun id =>
    match m.resolve? id with
    | some (.surfaceData d) => d.paints a.theme
    | _ => []

/-- All paints, in the order in which they are put down. -/
def paints (m : Model) : List (String × Paint) :=
  m.registry.entries.flatMap fun entry =>
    match entry.2 with
    | .appearance a => m.appearancePaints a
    | _ => []

/-- Puts on a polygon the paints for its identifier. -/
def paintPolygon (paints : List (String × Paint)) (p : Polygon) : Polygon :=
  match p.id with
  | none => p
  | some id => ((paints.filter (·.1 == id)).map Prod.snd).foldl Polygon.paint p

/-- The identifiers of the painted polygons that objects hold. -/
def reachedIds (m : Model) (paints : List (String × Paint)) : List String :=
  (m.polygons.filterMap (·.id)).filter fun id => paints.any (·.1 == id)

/-- The targets of the paints that no polygon of any object answers, each once. -/
def missedTargets (m : Model) (paints : List (String × Paint)) : List String :=
  let reached := m.reachedIds paints
  ((paints.map Prod.fst).filter (!reached.contains ·)).eraseDups

end Model

end CityScene
