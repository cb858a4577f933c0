import CityScene.Attribute.Schema
import CityScene.Appearance.Basic
import CityScene.Markup.Tag
import CityScene.Surface.Geometry

/-!
# The vocabulary of documents

`Element.ofTag` says what an element is from its local name; the prefix does not matter.  Names that
mean nothing here give `Element.unknown`.
-/

namespace CityScene.Document

/-- The place of a ring in a polygon. -/
inductive RingRole
  | exterior
  | interior
deriving DecidableEq, Repr

/-- Properties that hold one point. -/
inductive PointProperty
  /-- Where a grid starts. -/
  | origin
  /-- Where an implicit geometry is put. -/
  | referencePoint
deriving DecidableEq, Repr

/-- Elements with a text that positions are read from. -/
inductive PositionText
  | position
  | positionList
  | coordinates
  | lowerCorner
  | upperCorner
deriving DecidableEq, Repr

/-- Elements whose text is a property of the element around them. -/
inductive Property
  | genericValue
  | theme
  | isFront
  | diffuseColour
  | emissiveColour
  | specularColour
  | ambientIntensity
  | shininess
  | transparency
  | isSmooth
  | imageUri
  | mimeType
  | wrapMode
  | borderColour
  | target
  | textureCoordinates
  | transformationMatrix
  | libraryObject
  | gridLow
  | gridHigh
  | offsetVector
  | tupleList
  | fileName
  | country
  | locality
  | street
  | streetNumber
  | postalCode
deriving DecidableEq, Repr

/-- Elements of which the text counts. -/
inductive TextElement
  | positions (text : PositionText)
  | property (property : Property)
  /-- An attribute that some kind of object has in its schema. -/
  | thematic (name : String)
deriving DecidableEq, Repr

/-- What an element is. -/
inductive Element
  | model
  | object (kind : Kind)
  /-- A property with surfaces; without a level of its own it has that of the relief around it. -/
  | geometryProperty (lod : Option Nat)
  | implicitProperty (lod : Nat)
  /-- A property with curves or points, which hold no surfaces. -/
  | curveProperty
  | geometry (kind : GeometryKind)
  | polygon
  | boundary (role : RingRole)
  | ring
  | text (element : TextElement)
  | genericAttribute (type : ValueType)
  | appearance
  | appearanceProperty
  | material
  | texture (kind : TextureKind)
  | surfaceDataProperty
  /-- A target of a texture that holds texture coordinates. -/
  | textureTarget
  | envelope
  | address
  | implicitGeometry
  | relativeGeometry
  | pointProperty (property : PointProperty)
  | unknown
deriving DecidableEq, Repr

/-- Elements whose name alone says what they are. -/
def elementNames : List (String × Element) :=
  let position (t : PositionText) : Element := .text (.positions t)
  let property (p : Property) : Element := .text (.property p)
  [("CityModel", .model),
   ("Polygon", .polygon), ("Triangle", .polygon), ("PolygonPatch", .polygon),
   ("Rectangle", .polygon),
   ("exterior", .boundary .exterior), ("interior", .boundary .interior),
   ("LinearRing", .ring),
   ("pos", position .position), ("posList", position .positionList),
   ("coordinates", position .coordinates),
   ("tin", .geometryProperty none), ("reliefPoints", .curveProperty),
   ("Envelope", .envelope),
   ("lowerCorner", position .lowerCorner), ("upperCorner", position .upperCorner),
   ("stringAttribute", .genericAttribute .string), ("intAttribute", .genericAttribute .integer),
   ("doubleAttribute", .genericAttribute .double), ("dateAttribute", .genericAttribute .date),
   ("uriAttribute", .genericAttribute .uri), ("measureAttribute", .genericAttribute .measure),
   ("value", property .genericValue),
   ("Appearance", .appearance),
   ("appearance", .appearanceProperty), ("appearanceMember", .appearanceProperty),
   ("theme", property .theme),
   ("surfaceDataMember", .surfaceDataProperty),
   ("X3DMaterial", .material),
   ("ParameterizedTexture", .texture .parameterized),
   ("GeoreferencedTexture", .texture .georeferenced),
   ("isFront", property .isFront),
   ("diffuseColor", property .diffuseColour), ("emissiveColor", property .emissiveColour),
   ("specularColor", property .specularColour),
   ("ambientIntensity", property .ambientIntensity), ("shininess", property .shininess),
   ("transparency", property .transparency), ("isSmooth", property .isSmooth),
   ("imageURI", property .imageUri), ("mimeType", property .mimeType),
   ("wrapMode", property .wrapMode), ("borderColor", property .borderColour),
   ("target", property .target), ("textureCoordinates", property .textureCoordinates),
   ("ImplicitGeometry", .implicitGeometry),
   ("transformationMatrix", property .transformationMatrix),
   ("libraryObject", property .libraryObject),
   ("relativeGMLGeometry", .relativeGeometry),
   ("referencePoint", .pointProperty .referencePoint),
   ("origin", .pointProperty .origin),
   ("low", property .gridLow), ("high", property .gridHigh),
   ("offsetVector", property .offsetVector), ("tupleList", property .tupleList),
   ("fileName", property .fileName),
   ("Address", .address),
   ("CountryName", property .country), ("LocalityName", property .locality),
   ("ThoroughfareName", property .street), ("ThoroughfareNumber", property .streetNumber),
   ("PostalCodeNumber", property .postalCode)]

/-- The level of detail in a name such as `lod2MultiSurface`, and the rest of the name. -/
def splitLod? (name : String) : Option (Nat × List Char) :=
  match name.toList with
  | 'l' :: 'o' :: 'd' :: digit :: rest =>
    if '0' ≤ digit ∧ digit ≤ '4' then some (digit.toNat - '0'.toNat, rest) else none
  | _ => none

/-- The pattern occurs in the text. -/
def occursIn (pattern : List Char) : List Char → Bool
  | [] => pattern.isEmpty
  | c :: rest => pattern.isPrefixOf (c :: rest) || occursIn pattern rest

/-- What the names of properties with curves or points contain. -/
def curveMarks : List String :=
  ["Curve", "TerrainIntersection", "Network", "Point"]

/-- What a property for a level of detail is. -/
def Element.ofLodProperty (lod : Nat) (rest : List Char) : Element :=
  if rest = "ImplicitRepresentation".toList then .implicitProperty lod
  else if curveMarks.any fun mark => occursIn mark.toList rest then .curveProperty
  else .geometryProperty (some lod)

/-- What an element is by its local name. -/
def Element.ofName (name : String) : Element :=
  match Kind.ofName? name with
  | some kind => .object kind
  | none =>
    match elementNames.find? (·.1 == name) with
    | some (_, element) => element
    | none =>
      match GeometryKind.ofElementName? name with
      | some kind => .geometry kind
      | none =>
        match splitLod? name with
        | some (lod, rest) => .ofLodProperty lod rest
        | none => if isThematicAttribute name then .text (.thematic name) else .unknown

/-- What an element is.  A texture target that names its polygon in an attribute holds texture
coordinates; one that does not names it in its text. -/
def Element.ofTag (name : String) (attributes : Markup.Attributes) : Element :=
  match Element.ofName name with
  | .text (.property .target) =>
    if (attributes.value? "uri").isSome then .textureTarget else .text (.property .target)
  | element => element

end CityScene.Document
