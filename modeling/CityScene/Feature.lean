import CityScene.Dictionary
import CityScene.Tree
import CityScene.Attribute.Schema
import CityScene.Coverage
import CityScene.Surface.Geometry

/-!
# City objects

A city object is a tree of features: buildings with their parts and surfaces, roads with their
areas, and so on.  A feature's envelope covers its own geometry and that of all features below it.
Attributes are stored as they came; the typed views check them against the schema of the kind or a
type that is asked for.
-/

namespace CityScene

/-- A postal address. -/
structure Address where
  country : Option String := none
  locality : Option String := none
  street : Option String := none
  number : Option String := none
  postalCode : Option String := none
deriving DecidableEq, Repr

/-- No part of the address is given. -/
def Address.isEmpty (a : Address) : Bool :=
  a.country.isNone && a.locality.isNone && a.street.isNone && a.number.isNone &&
    a.postalCode.isNone

/-- Why a typed view of an attribute has no value. -/
inductive AttributeFault
  | notInSchema (name : String) (kind : Kind)
  | absent (name : String)
  | typeMismatch (name : String) (expected found : ValueType)
deriving DecidableEq, Repr

def AttributeFault.message : AttributeFault → String
  | .notInSchema name kind => s!"Attribute '{name}' is not defined for {kind.name}"
  | .absent name => s!"Attribute '{name}' is not set"
  | .typeMismatch name expected found =>
    s!"Attribute '{name}' holds a {found.name} value, expected {expected.name}"

/-- One node of a city object: what it is and what it carries itself. -/
structure Feature where
  id : String
  kind : Kind
  attributes : Dictionary Value := ∅
  /-- The box around everything the feature and those below it carry. -/
  envelope : Envelope Float := .empty
  /-- The box that the document states. -/
  declared : Option (Envelope Float) := none
  geometries : List Geometry := []
  implicits : List ImplicitGeometry := []
  coverage : Option GridCoverage := none
  address : Option Address := none
  /-- Identifiers of the appearances that the feature owns or refers to. -/
  appearances : List String := []

/-- A feature with the features below it. -/
abbrev CityObject := Tree Feature

namespace Feature

/-- The value of an attribute as another type. -/
def typedAttribute (f : Feature) (name : String) (type : ValueType) :
    Except AttributeFault Value :=
  match f.attributes.get? name with
  | none => .error (.absent name)
  | some value =>
    match value.coerce? type with
    | some v => .ok v
    | none => .error (.typeMismatch name type value.type)

/-- The value of an attribute as its type in the schema of the kind. -/
def schemaAttribute (f : Feature) (name : String) : Except AttributeFault Value :=
  match f.kind.schemaType? name with
  | none => .error (.notInSchema name f.kind)
  | some type => f.typedAttribute name type

/-- The text of an attribute, whatever its type. -/
def attributeText (f : Feature) (name : String) : Except AttributeFault String :=
  match f.attributes.get? name with
  | none => .error (.absent name)
  | some value => .ok value.text

def attributeFloat (f : Feature) (name : String) : Except AttributeFault Float := do
  match ← f.typedAttribute name .double with
  | .double x => return x
  | other => throw (.typeMismatch name .double other.type)

def attributeInteger (f : Feature) (name : String) : Except AttributeFault Int64 := do
  match ← f.typedAttribute name .integer with
  | .integer n => return n
  | other => throw (.typeMismatch name .integer other.type)

def attributeDate (f : Feature) (name : String) : Except AttributeFault Date := do
  match ← f.typedAttribute name .date with
  | .date d => return d
  | other => throw (.typeMismatch name .date other.type)

def setAttribute (f : Feature) (name : String) (value : Value) : Feature :=
  { f with attributes := f.attributes.insert name value }

/-- Notes an appearance, once. -/
def addAppearance (f : Feature) (id : String) : Feature :=
  if f.appearances.contains id then f else { f with appearances := f.appearances ++ [id] }

def geometriesAtLod (f : Feature) (lod : Nat) : List Geometry :=
  f.geometries.filter (·.lod == lod)

/-- The polygons of all geometries. -/
def polygons (f : Feature) : List Polygon :=
  f.geometries.flatMap (·.polygons)

/-- The feature with every polygon of its geometries changed. -/
def mapPolygons (f : Feature) (change : Polygon → Polygon) : Feature :=
  { f with geometries := f.geometries.map (·.mapPolygons change) }

def sampleAt (f : Feature) (row column : UInt64) : Except Overflow (Except GridFault Float) :=
  match f.coverage with
  | some grid => grid.sampleAt row column
  | none => .ok (.error .noCoverage)

/-- The envelope grown by what the feature itself carries. -/
def ownEnvelope (f : Feature) : Except Overflow (Envelope Float) :=
  let geometric := f.geometries.foldl (fun e g => e.union g.envelope) f.envelope
  let placed := f.implicits.foldl (fun e g => e.union g.envelope) geometric
  match f.coverage with
  | some grid => grid.envelope.map placed.union
  | none => .ok placed

end Feature

namespace CityObject

/-- The object carries no geometry and no coverage, and nothing stands below it. -/
def isEmpty (o : CityObject) : Bool :=
  o.children.isEmpty && o.label.geometries.isEmpty && o.label.implicits.isEmpty &&
    o.label.coverage.isNone

end CityObject

end CityScene
