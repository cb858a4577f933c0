import CityScene.Document.Element
import CityScene.Document.Grid
import CityScene.Feature

/-!
# Open elements

While a document is read, each open element has a frame with what has been collected for it so far.
The open elements are kept innermost first.  Elements without a meaning are transparent: what stands
in them belongs to the frame further out.
-/

namespace CityScene.Document

/-- A city object being read. -/
structure ObjectParts where
  feature : Feature
  /-- The objects already complete below it. -/
  children : List CityObject := []
  /-- The parts of a grid, for objects that are one. -/
  grid : Option GridParts := none

/-- The geometry of a property being read. -/
structure GeometryParts where
  lod : Nat
  srs : Option String
  /-- The geometry is the template of an implicit geometry. -/
  isTemplate : Bool
  /-- The outermost geometry element inside the property. -/
  kind : Option GeometryKind := none
  id : Option String := none
  polygons : List Polygon := []
deriving DecidableEq

/-- Notes a geometry element.  The outermost one gives kind and identifier; the first with a
reference system gives that. -/
def GeometryParts.note (g : GeometryParts) (kind : GeometryKind) (id srs : Option String) :
    GeometryParts :=
  let named := if g.kind.isNone then { g with kind := some kind, id := id } else g
  { named with srs := g.srs <|> srs }

structure PolygonParts where
  id : Option String
  exterior : Option LinearRing := none
  interiors : List LinearRing := []
  /-- A ring was refused. -/
  isInvalid : Bool := false
deriving DecidableEq

structure RingParts where
  id : Option String
  points : List (Vec3 Float) := []
  /-- A coordinate could not be read. -/
  isInvalid : Bool := false
deriving DecidableEq

/-- An element whose text is being collected. -/
structure TextParts where
  element : TextElement
  attributes : Markup.Attributes
  content : String := ""
deriving DecidableEq

structure GenericParts where
  name : Option String
  type : ValueType
  value : Option String := none
  unit : Option String := none
deriving DecidableEq

structure EnvelopeParts where
  srs : Option String
  lower : Option (Vec3 Float) := none
  upper : Option (Vec3 Float) := none
  points : List (Vec3 Float) := []
deriving DecidableEq

/-- The box around everything that was given. -/
def EnvelopeParts.envelope (e : EnvelopeParts) : Envelope Float :=
  Envelope.ofPoints (e.lower.toList ++ e.upper.toList ++ e.points)

/-- What has been collected for an open element. -/
inductive Frame
  | model
  | object (parts : ObjectParts)
  | geometry (parts : GeometryParts)
  | polygon (parts : PolygonParts)
  | boundary (role : RingRole) (ring : Option LinearRing)
  | ring (parts : RingParts)
  | text (parts : TextParts)
  | generic (parts : GenericParts)
  | appearance (appearance : Appearance)
  | surfaceData (data : SurfaceData)
  | textureTarget (target : SurfaceTarget)
  | envelope (parts : EnvelopeParts)
  | address (address : Address)
  | implicitProperty (lod : Nat)
  | implicitGeometry (geometry : ImplicitGeometry)
  | point (property : PointProperty) (value : Option (Vec3 Float))
  /-- An element without a meaning. -/
  | transparent
  /-- An element left out with everything in it. -/
  | skipped

namespace Frame

def isTransparent : Frame → Bool
  | transparent => true
  | _ => false

def isSkipped : Frame → Bool
  | skipped => true
  | _ => false

def isObject : Frame → Bool
  | object _ => true
  | _ => false

def isGeometry : Frame → Bool
  | geometry _ => true
  | _ => false

def object? : Frame → Option ObjectParts
  | object parts => some parts
  | _ => none

def polygon? : Frame → Option PolygonParts
  | polygon parts => some parts
  | _ => none

def appearance? : Frame → Option Appearance
  | appearance a => some a
  | _ => none

/-- The level of detail for implicit geometries inside. -/
def implicitLod? : Frame → Option Nat
  | implicitProperty lod => some lod
  | implicitGeometry g => some g.lod
  | _ => none

def isTemplate : Frame → Bool
  | geometry parts => parts.isTemplate
  | _ => false

def onObject (change : ObjectParts → ObjectParts) : Frame → Option Frame
  | object parts => some (object (change parts))
  | _ => none

def onGeometry (change : GeometryParts → GeometryParts) : Frame → Option Frame
  | geometry parts => some (geometry (change parts))
  | _ => none

def onPolygon (change : PolygonParts → PolygonParts) : Frame → Option Frame
  | polygon parts => some (polygon (change parts))
  | _ => none

def onImplicit (change : ImplicitGeometry → ImplicitGeometry) : Frame → Option Frame
  | implicitGeometry g => some (implicitGeometry (change g))
  | _ => none

def onAppearance (change : Appearance → Appearance) : Frame → Option Frame
  | appearance a => some (appearance (change a))
  | _ => none

end Frame

/-- An open element. -/
structure OpenElement where
  name : String
  /-- The coordinate reference system in effect. -/
  srs : Option String
  frame : Frame

/-- The open elements, innermost first. -/
abbrev Stack := List OpenElement

namespace Stack

/-- The innermost frame that is not transparent. -/
def owner? (s : Stack) : Option Frame :=
  (s.find? (!·.frame.isTransparent)).map (·.frame)

/-- Changes the innermost frame that is not transparent. -/
def updateOwner (change : Frame → Frame) : Stack → Stack
  | [] => []
  | e :: outer =>
    if e.frame.isTransparent then e :: updateOwner change outer
    else { e with frame := change e.frame } :: outer

/-- What `select` finds in the innermost frame where it finds something, looking no further than a
frame with the property `stop`. -/
def nearest? {α : Type} (stop : Frame → Bool) (select : Frame → Option α) : Stack → Option α
  | [] => none
  | e :: outer =>
    match select e.frame with
    | some a => some a
    | none => if stop e.frame then none else nearest? stop select outer

/-- Changes the innermost frame that `change` applies to, looking no further than a frame with the
property `stop`. -/
def updateNearest (stop : Frame → Bool) (change : Frame → Option Frame) : Stack → Stack
  | [] => []
  | e :: outer =>
    match change e.frame with
    | some frame => { e with frame := frame } :: outer
    | none => if stop e.frame then e :: outer else e :: updateNearest stop change outer

/-- No frame stops the search. -/
def unbounded (_ : Frame) : Bool :=
  false

/-- The innermost city object. -/
def object? (s : Stack) : Option ObjectParts :=
  s.nearest? unbounded Frame.object?

def updateObject (change : ObjectParts → ObjectParts) (s : Stack) : Stack :=
  s.updateNearest unbounded (Frame.onObject change)

/-- The identifier of the innermost city object. -/
def objectId? (s : Stack) : Option String :=
  s.object?.map (·.feature.id)

/-- Changes the innermost geometry of the innermost object. -/
def updateGeometry (change : GeometryParts → GeometryParts) (s : Stack) : Stack :=
  s.updateNearest Frame.isObject (Frame.onGeometry change)

/-- Where a search for a polygon ends. -/
def endsPolygon (f : Frame) : Bool :=
  f.isGeometry || f.isObject

/-- The innermost polygon of the innermost geometry. -/
def polygon? (s : Stack) : Option PolygonParts :=
  s.nearest? endsPolygon Frame.polygon?

def updatePolygon (change : PolygonParts → PolygonParts) (s : Stack) : Stack :=
  s.updateNearest endsPolygon (Frame.onPolygon change)

/-- Changes the innermost implicit geometry of the innermost object. -/
def updateImplicit (change : ImplicitGeometry → ImplicitGeometry) (s : Stack) : Stack :=
  s.updateNearest Frame.isObject (Frame.onImplicit change)

/-- The innermost appearance of the innermost object. -/
def appearance? (s : Stack) : Option Appearance :=
  s.nearest? Frame.isObject Frame.appearance?

def updateAppearance (change : Appearance → Appearance) (s : Stack) : Stack :=
  s.updateNearest Frame.isObject (Frame.onAppearance change)

/-- The level of detail for an implicit geometry opened here. -/
def implicitLod? (s : Stack) : Option Nat :=
  s.nearest? unbounded Frame.implicitLod?

/-- Some open element is the template of an implicit geometry. -/
def inTemplate (s : Stack) : Bool :=
  s.any (·.frame.isTemplate)

/-- The level of detail that the attributes of the innermost object state, if it is one of the five,
and zero otherwise. -/
def reliefLod (s : Stack) : Nat :=
  match s.object?.bind fun o => (o.feature.attributeInteger "lod").toOption with
  | some n => if 0 ≤ n.toInt ∧ n.toInt ≤ 4 then n.toInt.toNat else 0
  | none => 0

/-- The reference system in effect. -/
def srs? (s : Stack) : Option String :=
  s.head?.bind (·.srs)

end Stack

end CityScene.Document
