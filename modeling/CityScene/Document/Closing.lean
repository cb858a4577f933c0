import CityScene.Document.Builder

/-!
# Closing elements

What a closing tag does with the frame of its element: parts are put together, checked and handed to
the frame they belong to, or to the model.  Faults of content are reported and cost only the part
they are in.  Only the arithmetic of a grid may overflow, and with it the closing of its object.
-/

namespace CityScene.Document

/-- Adds a finished child, and its envelope. -/
def ObjectParts.addChild (o : ObjectParts) (child : CityObject) : ObjectParts :=
  let envelope := o.feature.envelope.union child.label.envelope
  { o with feature := { o.feature with envelope }, children := o.children ++ [child] }

/-- The finished object with a coverage. -/
def ObjectParts.finish (o : ObjectParts) (coverage : Option GridCoverage) :
    Except Overflow CityObject :=
  let feature := { o.feature with coverage }
  feature.ownEnvelope.map fun envelope => .node { feature with envelope } o.children

/-- Sets the ring of a boundary in its polygon. -/
def PolygonParts.addRing (p : PolygonParts) (role : RingRole) (ring : LinearRing) : PolygonParts :=
  match role with
  | .exterior => { p with exterior := some ring }
  | .interior => { p with interiors := p.interiors ++ [ring] }

namespace Builder

/-! ## Objects -/

/-- Hands a finished object to the object around it, or to the model. -/
def attachObject (b : Builder) (o : CityObject) : Builder :=
  match b.stack.object? with
  | some _ => { b with stack := b.stack.updateObject (·.addChild o) }
  | none => { b with model := b.model.addObject o }

/-- The coverage of an object, a fault in its parts being reported. -/
def closeGrid (b : Builder) (o : ObjectParts) :
    Except Overflow (Builder × Option GridCoverage) :=
  match o.grid with
  | none => .ok (b, none)
  | some grid =>
    grid.build.map fun
      | .ok coverage => (b, coverage)
      | .error fault => (b.report (.grid fault) (some o.feature.id), none)

def closeObject (config : Config) (b : Builder) (o : ObjectParts) : Except Overflow Builder := do
  let (b, coverage) ← b.closeGrid o
  let object ← o.finish coverage
  return if config.prune && object.isEmpty then b else b.attachObject object

/-- Changes the feature of the innermost object. -/
def updateFeature (b : Builder) (change : Feature → Feature) : Builder :=
  { b with stack := b.stack.updateObject fun o => { o with feature := change o.feature } }

/-! ## Geometry -/

/-- The geometry of a property.  Geometry that belongs to an object is labelled with the system that
points end up in. -/
def geometryOf (config : Config) (g : GeometryParts) : Geometry :=
  let srs := if g.isTemplate then g.srs else config.destination? <|> g.srs
  { id := g.id, lod := g.lod, kind := g.kind.getD .multiSurface, srs, polygons := g.polygons }

/-- Registers a template under its identifier, if it has one. -/
def registerTemplate (b : Builder) (geometry : Geometry) : Builder :=
  match geometry.id with
  | some id => { b with model := b.model.register id (.template geometry) }
  | none => b

/-- Hands geometry with polygons to its implicit geometry or object. -/
def closeGeometry (config : Config) (b : Builder) (g : GeometryParts) : Builder :=
  if g.polygons.isEmpty then b
  else
    let geometry := geometryOf config g
    if g.isTemplate then
      let change (i : ImplicitGeometry) := { i with template := .inline geometry }
      let b := b.registerTemplate geometry
      { b with stack := b.stack.updateImplicit change }
    else b.updateFeature fun f => { f with geometries := f.geometries ++ [geometry] }

/-- Reports a polygon that has no mesh although it was tessellated. -/
def reportMesh (b : Builder) (p : Polygon) : Builder :=
  match p.failure? with
  | some failure => b.report (.tessellation failure) (p.id <|> b.stack.objectId?)
  | none => b

/-- Completes a polygon.  One with a refused ring is dropped, its report having been made. -/
def closePolygon (config : Config) (b : Builder) (p : PolygonParts) : Builder :=
  if p.isInvalid then b
  else
    match p.exterior with
    | none => b.report (.noExterior p.id) (p.id <|> b.stack.objectId?)
    | some exterior =>
      let pending : Polygon := { id := p.id, exterior, interiors := p.interiors }
      let polygon := if config.mode = .eager then pending.tessellate config.smooth else pending
      let b := b.reportMesh polygon
      let change (g : GeometryParts) := { g with polygons := g.polygons ++ [polygon] }
      { b with stack := b.stack.updateGeometry change }

/-- Hands the ring of a boundary to the polygon. -/
def closeBoundary (b : Builder) (role : RingRole) (ring : Option LinearRing) : Builder :=
  match ring with
  | none => b
  | some ring =>
    let change : Frame → Frame
      | .polygon p => .polygon (p.addRing role ring)
      | frame => frame
    { b with stack := b.stack.updateOwner change }

/-- Checks a ring.  A ring that is refused makes the polygon around it invalid. -/
def closeRing (config : Config) (b : Builder) (r : RingParts) : Builder :=
  let ring := if r.isInvalid then .error (.unreadable r.id)
    else LinearRing.ofPoints r.id r.points config.closedRings
  match ring with
  | .ok ring =>
    let change : Frame → Frame
      | .boundary role _ => .boundary role (some ring)
      | frame => frame
    { b with stack := b.stack.updateOwner change }
  | .error fault =>
    let polygon := b.stack.polygon?.bind (·.id)
    let stack := b.stack.updatePolygon fun p => { p with isInvalid := true }
    { b with stack }.report (.ring fault) (polygon <|> b.stack.objectId?)

/-! ## Texts -/

/-- The dimension of the positions in a text: the one stated there, or else that of the reference
system in effect. -/
def dimension? (b : Builder) (srs : Option String) (attributes : Markup.Attributes) : Option Nat :=
  let stated := (attributes.value? "srsDimension").bind fun d =>
    Decimal.readCount? (Decimal.greatest 64) (Text.trim d.toList)
  stated <|> b.systemDimension? srs

def closePositions (config : Config) (b : Builder) (srs : Option String) (kind : PositionText)
    (attributes : Markup.Attributes) (text : String) : Builder :=
  match kind.read attributes (b.dimension? srs attributes) text with
  | .ok points =>
    let points := b.reproject config srs points
    { b with stack := b.stack.updateOwner (·.takePoints kind points) }
  | .error fault =>
    { b with stack := b.stack.updateOwner Frame.missPoints }.report (.value fault) b.stack.objectId?

def closeProperty (b : Builder) (property : Property) (attributes : Markup.Attributes)
    (text : String) : Builder :=
  match b.stack.owner? with
  | none => b
  | some owner =>
    match owner.takeProperty property attributes text with
    | .ok frame => { b with stack := b.stack.updateOwner fun _ => frame }
    | .error fault => b.report (.value fault) b.stack.objectId?

/-- Sets an attribute of the innermost object from text of a type, or as a string with a report if
the text is not of that type. -/
def setAttribute (b : Builder) (name text : String) (type : ValueType) (unit : Option String)
    (problem : Problem) : Builder :=
  match Value.parseAs? text type unit with
  | some value => b.updateFeature (·.setAttribute name value)
  | none => (b.updateFeature (·.setAttribute name (.string text))).report problem b.stack.objectId?

/-- Sets the name or the description of the model. -/
def setModelText (b : Builder) (name text : String) : Builder :=
  match name with
  | "name" => { b with model := { b.model with name := some text } }
  | "description" => { b with model := { b.model with description := some text } }
  | _ => b

/-- An attribute from the schema, typed as the kind of its object has it; a kind that lacks it takes
it as a string. -/
def closeThematic (b : Builder) (name : String) (attributes : Markup.Attributes) (text : String) :
    Builder :=
  match b.stack.owner? with
  | some (.object o) =>
    let type := (o.feature.kind.schemaType? name).getD .string
    b.setAttribute name text type (attributes.value? "uom") (.attributeType name text type)
  | none | some .model => b.setModelText name text
  | _ => b

def closeText (config : Config) (b : Builder) (srs : Option String) (t : TextParts) : Builder :=
  let text := Text.trimmed t.content
  match t.element with
  | .positions kind => b.closePositions config srs kind t.attributes text
  | .property property => b.closeProperty property t.attributes text
  | .thematic name => b.closeThematic name t.attributes text

/-- An attribute that states its own name and type. -/
def closeGeneric (b : Builder) (g : GenericParts) : Builder :=
  let name := g.name.getD ""
  let text := g.value.getD ""
  if name.isEmpty then b.report .unnamedAttribute b.stack.objectId?
  else if b.stack.object?.isNone then b
  else b.setAttribute name text g.type g.unit (.genericType name text g.type)

/-! ## Appearances, envelopes and points -/

def closeAppearance (b : Builder) (a : Appearance) : Builder :=
  { b with model := b.model.registerAppearance a }.updateFeature (·.addAppearance a.id)

def closeSurfaceData (b : Builder) (d : SurfaceData) : Builder :=
  let change (a : Appearance) := { a with surfaceData := a.surfaceData ++ [d.id] }
  { b with model := b.model.registerSurfaceData d, stack := b.stack.updateAppearance change }

def closeTarget (b : Builder) (target : SurfaceTarget) : Builder :=
  let change : Frame → Frame
    | .surfaceData d => .surfaceData { d with targets := d.targets ++ [target] }
    | frame => frame
  { b with stack := b.stack.updateOwner change }

def closeAddress (b : Builder) (a : Address) : Builder :=
  if a.isEmpty then b else b.updateFeature fun f => { f with address := some a }

/-- States the envelope of an object or of the model.  The first envelope of the model that has a
reference system gives it to the model. -/
def closeEnvelope (b : Builder) (e : EnvelopeParts) : Builder :=
  let envelope := e.envelope
  if !envelope.isValid then b
  else
    match b.stack.owner? with
    | some (.object _) => b.updateFeature fun f => { f with declared := some envelope }
    | none | some .model =>
      { b with model := { b.model with srs := b.model.srs <|> e.srs, declared := some envelope } }
    | _ => b

def closePoint (b : Builder) (property : PointProperty) (value : Option (Vec3 Float)) : Builder :=
  match value with
  | none => b
  | some p =>
    let change : Frame → Frame
      | .object o =>
        if property = .origin then
          .object { o with grid := o.grid.map fun g => { g with origin := some p } }
        else .object o
      | .implicitGeometry g =>
        if property = .referencePoint then .implicitGeometry { g with referencePoint := p }
        else .implicitGeometry g
      | frame => frame
    { b with stack := b.stack.updateOwner change }

/-- What closing an element does, once it is off the stack. -/
def closeFrame (config : Config) (b : Builder) (srs : Option String) :
    Frame → Except Overflow Builder
  | .model | .transparent | .skipped | .implicitProperty _ => .ok b
  | .object o => b.closeObject config o
  | .geometry g => .ok (b.closeGeometry config g)
  | .polygon p => .ok (b.closePolygon config p)
  | .boundary role ring => .ok (b.closeBoundary role ring)
  | .ring r => .ok (b.closeRing config r)
  | .text t => .ok (b.closeText config srs t)
  | .generic g => .ok (b.closeGeneric g)
  | .appearance a => .ok (b.closeAppearance a)
  | .surfaceData d => .ok (b.closeSurfaceData d)
  | .textureTarget t => .ok (b.closeTarget t)
  | .envelope e => .ok (b.closeEnvelope e)
  | .address a => .ok (b.closeAddress a)
  | .implicitGeometry g =>
    .ok (b.updateFeature fun f => { f with implicits := f.implicits ++ [g] })
  | .point property value => .ok (b.closePoint property value)

end Builder

end CityScene.Document
