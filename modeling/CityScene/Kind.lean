/-!
# Kinds of city objects

The closed set of features a city model is made of, each with the local name of its element.  Which
kinds usually stand below which is `Kind.expects`; it is advice, and nothing is refused for it.
-/

namespace CityScene

/-- What a city object is. -/
inductive Kind
  | building
  | buildingPart
  | room
  | buildingInstallation
  | buildingFurniture
  | door
  | window
  | wallSurface
  | roofSurface
  | groundSurface
  | closureSurface
  | floorSurface
  | interiorWallSurface
  | ceilingSurface
  | outerCeilingSurface
  | outerFloorSurface
  | bridge
  | bridgePart
  | bridgeConstructionElement
  | bridgeInstallation
  | tunnel
  | tunnelPart
  | tunnelInstallation
  | road
  | railway
  | track
  | square
  | transportationComplex
  | trafficArea
  | auxiliaryTrafficArea
  | waterBody
  | waterSurface
  | waterGroundSurface
  | waterClosureSurface
  | plantCover
  | solitaryVegetationObject
  | landUse
  | cityFurniture
  | genericCityObject
  | cityObjectGroup
  | reliefFeature
  | tinRelief
  | massPointRelief
  | rasterRelief
  | rectifiedGridCoverage
deriving DecidableEq, Repr

namespace Kind

/-- Every kind, in declaration order. -/
def all : List Kind :=
  [.building, .buildingPart, .room, .buildingInstallation, .buildingFurniture, .door, .window,
   .wallSurface, .roofSurface, .groundSurface, .closureSurface, .floorSurface,
   .interiorWallSurface, .ceilingSurface, .outerCeilingSurface, .outerFloorSurface, .bridge,
   .bridgePart, .bridgeConstructionElement, .bridgeInstallation, .tunnel, .tunnelPart,
   .tunnelInstallation, .road, .railway, .track, .square, .transportationComplex, .trafficArea,
   .auxiliaryTrafficArea, .waterBody, .waterSurface, .waterGroundSurface, .waterClosureSurface,
   .plantCover, .solitaryVegetationObject, .landUse, .cityFurniture, .genericCityObject,
   .cityObjectGroup, .reliefFeature, .tinRelief, .massPointRelief, .rasterRelief,
   .rectifiedGridCoverage]

/-- The local name of the element. -/
def name : Kind → String
  | .building => "Building"
  | .buildingPart => "BuildingPart"
  | .room => "Room"
  | .buildingInstallation => "BuildingInstallation"
  | .buildingFurniture => "BuildingFurniture"
  | .door => "Door"
  | .window => "Window"
  | .wallSurface => "WallSurface"
  | .roofSurface => "RoofSurface"
  | .groundSurface => "GroundSurface"
  | .closureSurface => "ClosureSurface"
  | .floorSurface => "FloorSurface"
  | .interiorWallSurface => "InteriorWallSurface"
  | .ceilingSurface => "CeilingSurface"
  | .outerCeilingSurface => "OuterCeilingSurface"
  | .outerFloorSurface => "OuterFloorSurface"
  | .bridge => "Bridge"
  | .bridgePart => "BridgePart"
  | .bridgeConstructionElement => "BridgeConstructionElement"
  | .bridgeInstallation => "BridgeInstallation"
  | .tunnel => "Tunnel"
  | .tunnelPart => "TunnelPart"
  | .tunnelInstallation => "TunnelInstallation"
  | .road => "Road"
  | .railway => "Railway"
  | .track => "Track"
  | .square => "Square"
  | .transportationComplex => "TransportationComplex"
  | .trafficArea => "TrafficArea"
  | .auxiliaryTrafficArea => "AuxiliaryTrafficArea"
  | .waterBody => "WaterBody"
  | .waterSurface => "WaterSurface"
  | .waterGroundSurface => "WaterGroundSurface"
  | .waterClosureSurface => "WaterClosureSurface"
  | .plantCover => "PlantCover"
  | .solitaryVegetationObject => "SolitaryVegetationObject"
  | .landUse => "LandUse"
  | .cityFurniture => "CityFurniture"
  | .genericCityObject => "GenericCityObject"
  | .cityObjectGroup => "CityObjectGroup"
  | .reliefFeature => "ReliefFeature"
  | .tinRelief => "TINRelief"
  | .massPointRelief => "MassPointRelief"
  | .rasterRelief => "RasterRelief"
  | .rectifiedGridCoverage => "RectifiedGridCoverage"

def ofName? (s : String) : Option Kind :=
  all.find? (·.name == s)

/-- The name in listings of settings, where acronyms are written as words. -/
def label : Kind → String
  | .tinRelief => "TinRelief"
  | k => k.name

/-- The stem of identifiers generated for objects that have none. -/
def idStem (k : Kind) : String :=
  k.name

/-- A thematic surface such as a wall, a roof or the ground. -/
def isBoundarySurface : Kind → Bool
  | .wallSurface | .roofSurface | .groundSurface | .closureSurface | .floorSurface
  | .interiorWallSurface | .ceilingSurface | .outerCeilingSurface | .outerFloorSurface => true
  | _ => false

/-- Objects of this kind usually carry objects of kind `child`. -/
def expects (k child : Kind) : Bool :=
  match k with
  | .building | .buildingPart =>
    [.buildingPart, .room, .buildingInstallation].contains child || child.isBoundarySurface
  | .room => [.buildingFurniture, .buildingInstallation].contains child || child.isBoundarySurface
  | .bridge | .bridgePart =>
    [.bridgePart, .bridgeConstructionElement, .bridgeInstallation].contains child ||
      child.isBoundarySurface
  | .tunnel | .tunnelPart =>
    [.tunnelPart, .tunnelInstallation].contains child || child.isBoundarySurface
  | .buildingInstallation | .bridgeInstallation | .bridgeConstructionElement
  | .tunnelInstallation => child.isBoundarySurface
  | .road | .railway | .track | .square | .transportationComplex =>
    [.trafficArea, .auxiliaryTrafficArea].contains child
  | .waterBody => [.waterSurface, .waterGroundSurface, .waterClosureSurface].contains child
  | .reliefFeature => [.tinRelief, .massPointRelief, .rasterRelief].contains child
  | .rasterRelief => child == .rectifiedGridCoverage
  | .cityObjectGroup => true
  | surface => surface.isBoundarySurface && [.door, .window].contains child

end Kind

end CityScene
