import CityScene.Document.Frame

/-!
# Delivering texts

What the text of an element does to the frame it belongs to.  A text that cannot be read leaves the
frame as it was, save that a ring remembers that a coordinate is missing.
-/

namespace CityScene

open Document

/-- Sets a property of a material; properties that materials lack are passed over. -/
def Material.take (m : Material) (property : Property) (text : String) :
    Except ValueFault Material := do
  match property with
  | .diffuseColour => return { m with diffuse := some (← readColour text) }
  | .emissiveColour => return { m with emissive := some (← readColour text) }
  | .specularColour => return { m with specular := some (← readColour text) }
  | .ambientIntensity =>
    return { m with ambientIntensity := some (← readFraction "ambientIntensity" text) }
  | .shininess => return { m with shininess := some (← readFraction "shininess" text) }
  | .transparency => return { m with transparency := some (← readFraction "transparency" text) }
  | .isSmooth => return { m with isSmooth := ← readFlag "isSmooth" text }
  | _ => return m

/-- Sets a property of a texture; properties that textures lack are passed over. -/
def Texture.take (t : Texture) (property : Property) (text : String) :
    Except ValueFault Texture := do
  match property with
  | .imageUri => return { t with imageUri := some text }
  | .mimeType => return { t with mimeType := some text }
  | .wrapMode => return { t with wrapMode := ← readWrapMode text }
  | .borderColour => return { t with borderColour := some (← readColourAlpha text) }
  | _ => return t

/-- Sets a property of a material or texture. -/
def Surfacing.take (s : Surfacing) (property : Property) (text : String) :
    Except ValueFault Surfacing := do
  match s with
  | .material m => return .material (← m.take property text)
  | .texture t => return .texture (← t.take property text)

/-- Sets a property of surface data, or adds a target. -/
def SurfaceData.take (d : SurfaceData) (property : Property) (text : String) :
    Except ValueFault SurfaceData := do
  match property with
  | .isFront => return { d with isFront := ← readFlag "isFront" text }
  | .target => return { d with targets := d.targets ++ [⟨Text.withoutFragmentMark text, []⟩] }
  | _ => return { d with surfacing := ← d.surfacing.take property text }

/-- Adds texture coordinates for a ring. -/
def SurfaceTarget.take (t : SurfaceTarget) (property : Property) (ring : Option String)
    (text : String) : Except ValueFault SurfaceTarget := do
  match property with
  | .textureCoordinates =>
    let entry := ⟨ring.map Text.withoutFragmentMark, ← readTextureCoordinates text⟩
    return { t with rings := t.rings ++ [entry] }
  | _ => return t

/-- Sets a property of an implicit geometry. -/
def ImplicitGeometry.take (g : ImplicitGeometry) (property : Property) (text : String) :
    Except ValueFault ImplicitGeometry := do
  match property with
  | .mimeType => return { g with mimeType := some text }
  | .libraryObject => return { g with libraryObject := some text }
  | .transformationMatrix => return { g with transformation := ← readMatrix text }
  | _ => return g

/-- Sets a part of an address. -/
def Address.take (a : Address) (property : Property) (text : String) : Address :=
  match property with
  | .country => { a with country := some text }
  | .locality => { a with locality := some text }
  | .street => { a with street := some text }
  | .streetNumber => { a with number := some text }
  | .postalCode => { a with postalCode := some text }
  | _ => a

namespace Document

/-- Sets a part of a grid. -/
def GridParts.take (g : GridParts) (property : Property) (text : String) :
    Except ValueFault GridParts := do
  match property with
  | .gridLow => return { g with low := some (← readIntegers "low" text) }
  | .gridHigh => return { g with high := some (← readIntegers "high" text) }
  | .offsetVector =>
    return { g with offsetVectors := g.offsetVectors ++ [← readPoint "offsetVector" text] }
  | .tupleList => return { g with samples := some (← readSamples text) }
  | .fileName => return { g with file := some text }
  | _ => return g

/-- Sets the value of a generic attribute. -/
def GenericParts.take (g : GenericParts) (property : Property) (unit : Option String)
    (text : String) : GenericParts :=
  match property with
  | .genericValue => { g with value := some text, unit := unit }
  | _ => g

namespace Frame

/-- Gives the frame the text of a property that stands in it. -/
def takeProperty (property : Property) (attributes : Markup.Attributes) (text : String) :
    Frame → Except ValueFault Frame
  | .generic g => return .generic (g.take property (attributes.value? "uom") text)
  | .appearance a =>
    return .appearance (if property = .theme then { a with theme := text } else a)
  | .surfaceData d => return .surfaceData (← d.take property text)
  | .textureTarget t =>
    return .textureTarget (← t.take property (attributes.value? "ring") text)
  | .implicitGeometry g => return .implicitGeometry (← g.take property text)
  | .object o =>
    match o.grid with
    | some grid => return .object { o with grid := some (← grid.take property text) }
    | none => return .object o
  | .address a => return .address (a.take property text)
  | frame => return frame

/-- Gives the frame the points of a position text that stands in it. -/
def takePoints (text : PositionText) (points : List (Vec3 Float)) : Frame → Frame
  | .envelope e =>
    match text with
    | .lowerCorner => .envelope { e with lower := points.head? }
    | .upperCorner => .envelope { e with upper := points.head? }
    | _ => .envelope { e with points := e.points ++ points }
  | .ring r => .ring { r with points := r.points ++ points }
  | .point property _ => .point property points.head?
  | frame => frame

/-- Tells the frame that a position text in it could not be read. -/
def missPoints : Frame → Frame
  | .ring r => .ring { r with isInvalid := true }
  | frame => frame

/-- Gives the frame character data. -/
def takeText (content : String) : Frame → Frame
  | .text t => .text { t with content := t.content ++ content }
  | frame => frame

end Frame

/-- The separators that attributes state, by their first characters. -/
def separators (attributes : Markup.Attributes) : Separators :=
  let first (name : String) := (attributes.value? name).bind (·.toList.head?)
  { decimal := (first "decimal").getD '.'
    component := (first "cs").getD ','
    tuple := (first "ts").getD ' ' }

/-- The points of a position text.  The dimension counts for lists of positions only; it is three
unless stated. -/
def PositionText.read (kind : PositionText) (attributes : Markup.Attributes)
    (dimension : Option Nat) (text : String) : Except ValueFault (List (Vec3 Float)) :=
  match kind with
  | .positionList => readPositions text (dimension.getD 3)
  | .coordinates => readCoordinates text (separators attributes)
  | .position | .lowerCorner | .upperCorner => (readPoint "pos" text).map fun p => [p]

end Document

end CityScene
