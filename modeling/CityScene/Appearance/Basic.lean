import CityScene.Appearance.Colour
import CityScene.Space.Vec

/-!
# Appearances

An appearance gathers, under a theme, the identifiers of materials and textures.  Each of those
names the polygons it applies to; a texture also gives, ring by ring, a texture coordinate for every
point.
-/

namespace CityScene

structure Material where
  ambientIntensity : Option Float := none
  diffuse : Option Colour := none
  emissive : Option Colour := none
  specular : Option Colour := none
  shininess : Option Float := none
  transparency : Option Float := none
  isSmooth : Bool := false
deriving DecidableEq, Repr

/-- How a texture is attached to surfaces. -/
inductive TextureKind
  /-- By texture coordinates for each ring. -/
  | parameterized
  /-- By its place in the world. -/
  | georeferenced
deriving DecidableEq, Repr

def TextureKind.name : TextureKind → String
  | .parameterized => "Parameterized"
  | .georeferenced => "Georeferenced"

/-- What a texture shows outside its image. -/
inductive WrapMode
  | none
  | wrap
  | mirror
  | clamp
  | border
deriving DecidableEq, Repr

/-- A wrap mode with an unknown name. -/
structure WrapModeFault where
  text : String
deriving DecidableEq, Repr

def WrapModeFault.message (f : WrapModeFault) : String :=
  s!"Unknown wrap mode '{f.text}'"

namespace WrapMode

def name : WrapMode → String
  | none => "None"
  | wrap => "Wrap"
  | mirror => "Mirror"
  | clamp => "Clamp"
  | border => "Border"

def parse (s : String) : Except WrapModeFault WrapMode :=
  match Text.trimmed s with
  | "none" => .ok none
  | "wrap" => .ok wrap
  | "mirror" => .ok mirror
  | "clamp" => .ok clamp
  | "border" => .ok border
  | other => .error ⟨other⟩

end WrapMode

structure Texture where
  kind : TextureKind
  imageUri : Option String := none
  mimeType : Option String := none
  wrapMode : WrapMode := .none
  borderColour : Option ColourAlpha := none
deriving DecidableEq, Repr

/-- The texture coordinates of one ring. -/
structure RingCoordinates where
  /-- The identifier of the ring, if the coordinates name one. -/
  ring : Option String
  coordinates : List (Vec2 Float)
deriving DecidableEq, Repr

/-- A polygon that surface data applies to. -/
structure SurfaceTarget where
  polygon : String
  rings : List RingCoordinates
deriving DecidableEq, Repr

inductive Surfacing
  | material (material : Material)
  | texture (texture : Texture)
deriving DecidableEq, Repr

/-- A material or texture and the polygons it applies to. -/
structure SurfaceData where
  id : String
  surfacing : Surfacing
  isFront : Bool := true
  targets : List SurfaceTarget := []
deriving DecidableEq, Repr

def SurfaceData.texture? (d : SurfaceData) : Option Texture :=
  match d.surfacing with
  | .texture t => some t
  | .material _ => none

/-- Surface data gathered under a theme. -/
structure Appearance where
  id : String
  theme : String := ""
  /-- Identifiers of materials and textures. -/
  surfaceData : List String := []
deriving DecidableEq, Repr

end CityScene
