import CityScene.Error
import CityScene.Feature
import CityScene.Reference

/-!
# City models

A model holds top-level objects, the envelope around them, and a registry of what the document
defines.  What it does not define may come from a shared registry.
-/

namespace CityScene

structure Model where
  name : Option String := none
  description : Option String := none
  /-- Name of the coordinate reference system. -/
  srs : Option String := none
  /-- The box around all objects. -/
  envelope : Envelope Float := .empty
  /-- The box that the document states. -/
  declared : Option (Envelope Float) := none
  /-- The top-level objects, in document order. -/
  objects : List CityObject := []
  registry : Registry := ∅
  /-- Definitions to fall back on. -/
  shared : Option Registry := none
  /-- References that nothing answered yet. -/
  pending : List Reference := []

namespace Model

/-- Every feature, in pre-order. -/
def features (m : Model) : List Feature :=
  (Tree.walk m.objects).map (·.label)

/-- The first object with an identifier, in pre-order. -/
def findObject? (m : Model) (id : String) : Option CityObject :=
  Tree.find? (·.id == id) m.objects

/-- The polygons of all objects, in document order. -/
def polygons (m : Model) : List Polygon :=
  (Tree.forestLabels m.objects).flatMap (·.polygons)

/-- The model with every polygon of every object changed. -/
def mapPolygons (m : Model) (change : Polygon → Polygon) : Model :=
  { m with objects := Tree.forestMap (·.mapPolygons change) m.objects }

/-- Adds a finished top-level object. -/
def addObject (m : Model) (o : CityObject) : Model :=
  { m with envelope := m.envelope.union o.label.envelope, objects := m.objects ++ [o] }

def register (m : Model) (id : String) (definition : Definition) : Model :=
  { m with registry := m.registry.insert id definition }

def registerAppearance (m : Model) (a : Appearance) : Model :=
  m.register a.id (.appearance a)

def registerSurfaceData (m : Model) (d : SurfaceData) : Model :=
  m.register d.id (.surfaceData d)

/-- The definition under exactly this identifier, the model's own before a shared one. -/
def definition? (m : Model) (id : String) : Option Definition :=
  m.registry.get? id <|> m.shared.bind (·.get? id)

/-- A text without leading number signs. -/
def bareId (id : String) : String :=
  String.ofList (id.toList.dropWhile (· == '#'))

/-- The definition that an identifier, perhaps with number signs in front, stands for. -/
def resolve? (m : Model) (id : String) : Option Definition :=
  m.definition? (bareId id)

/-- The definition that an identifier stands for, or the error that there is none. -/
def resolve (m : Model) (id : String) : Except Error Definition :=
  match m.resolve? id with
  | some definition => .ok definition
  | none => .error (.notFound (bareId id))

/-- The geometry that an implicit geometry places, if it is given or defined. -/
def template? (m : Model) (g : ImplicitGeometry) : Option Geometry :=
  match g.template with
  | .none => none
  | .inline geometry => some geometry
  | .reference id =>
    match m.resolve? id with
    | some (.template geometry) => some geometry
    | _ => none

end Model

/-- The pixels of a texture image. -/
structure Image where
  width : Nat
  height : Nat
  /-- Bytes per pixel. -/
  channels : Nat
  pixels : List UInt8
deriving DecidableEq, Repr

/-- Loads the image of a texture.  The loader is given the texture's identifier as asked for and the
address of its image. -/
def Model.loadTexture (m : Model) (load : String → String → Except Error Image) (id : String) :
    Except Error Image := do
  match ← m.resolve id with
  | .surfaceData data =>
    match data.texture? with
    | none => throw (.texture (.material id))
    | some texture =>
      match texture.imageUri with
      | none => throw (.texture (.noImage id))
      | some source => load id source
  | _ => throw (.texture (.notATexture id))

end CityScene
