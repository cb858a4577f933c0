import CityScene.Kind
import CityScene.Attribute.Value

/-!
# Attribute schemas

Which attributes the objects of a kind have and of which type.  A schema is put together from
groups: those of every feature, those of classified ones, and those of a theme.
-/

namespace CityScene

/-- An attribute a kind may have. -/
structure SchemaEntry where
  name : String
  type : ValueType
deriving DecidableEq, Repr

/-- The groups of attributes that schemas are made of. -/
inductive SchemaGroup
  | core
  | classified
  | construction
  | building
  | bridge
  | trafficArea
  | waterSurface
  | plantCover
  | solitaryVegetation
  | relief
deriving DecidableEq, Repr

namespace SchemaGroup

def all : List SchemaGroup :=
  [.core, .classified, .construction, .building, .bridge, .trafficArea, .waterSurface, .plantCover,
   .solitaryVegetation, .relief]

def entries : SchemaGroup → List SchemaEntry
  | .core => [⟨"name", .string⟩, ⟨"description", .string⟩, ⟨"creationDate", .date⟩,
      ⟨"terminationDate", .date⟩, ⟨"relativeToTerrain", .string⟩, ⟨"relativeToWater", .string⟩]
  | .classified => [⟨"class", .string⟩, ⟨"function", .string⟩, ⟨"usage", .string⟩]
  | .construction => [⟨"yearOfConstruction", .integer⟩, ⟨"yearOfDemolition", .integer⟩]
  | .building => [⟨"roofType", .string⟩, ⟨"measuredHeight", .measure⟩,
      ⟨"storeysAboveGround", .integer⟩, ⟨"storeysBelowGround", .integer⟩,
      ⟨"storeyHeightsAboveGround", .string⟩, ⟨"storeyHeightsBelowGround", .string⟩]
  | .bridge => [⟨"isMovable", .string⟩]
  | .trafficArea => [⟨"surfaceMaterial", .string⟩]
  | .waterSurface => [⟨"waterLevel", .string⟩]
  | .plantCover => [⟨"averageHeight", .measure⟩]
  | .solitaryVegetation => [⟨"species", .string⟩, ⟨"height", .measure⟩,
      ⟨"trunkDiameter", .measure⟩, ⟨"crownDiameter", .measure⟩]
  | .relief => [⟨"lod", .integer⟩]

end SchemaGroup

namespace Kind

/-- The groups of attributes that objects of a kind have. -/
def schemaGroups : Kind → List SchemaGroup
  | .building | .buildingPart => [.core, .classified, .construction, .building]
  | .bridge | .bridgePart => [.core, .classified, .construction, .bridge]
  | .tunnel | .tunnelPart => [.core, .classified, .construction]
  | .trafficArea | .auxiliaryTrafficArea => [.core, .classified, .trafficArea]
  | .waterSurface => [.core, .waterSurface]
  | .plantCover => [.core, .classified, .plantCover]
  | .solitaryVegetationObject => [.core, .classified, .solitaryVegetation]
  | .reliefFeature | .tinRelief | .massPointRelief | .rasterRelief | .rectifiedGridCoverage =>
    [.core, .relief]
  | .wallSurface | .roofSurface | .groundSurface | .closureSurface | .floorSurface
  | .interiorWallSurface | .ceilingSurface | .outerCeilingSurface | .outerFloorSurface | .door
  | .window | .waterGroundSurface | .waterClosureSurface => [.core]
  | .room | .buildingInstallation | .buildingFurniture | .bridgeConstructionElement
  | .bridgeInstallation | .tunnelInstallation | .road | .railway | .track | .square
  | .transportationComplex | .waterBody | .landUse | .cityFurniture | .genericCityObject
  | .cityObjectGroup => [.core, .classified]

/-- The type of an attribute, or `none` if the kind has no such attribute. -/
def schemaType? (k : Kind) (name : String) : Option ValueType :=
  ((k.schemaGroups.flatMap (·.entries)).find? (·.name == name)).map (·.type)

end Kind

/-- Some kind has an attribute of this name. -/
def isThematicAttribute (name : String) : Bool :=
  SchemaGroup.all.any fun group => group.entries.any (·.name == name)

end CityScene
