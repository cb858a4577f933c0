import CityScene.Table
import CityScene.Text.Blank
import CityScene.Appearance.Basic
import CityScene.Surface.Geometry

/-!
# Definitions and references

A registry holds what a document defines under an identifier.  A reference names a definition of a
certain kind, or a polygon; polygons are not registered, they are found among the objects.
-/

namespace CityScene

/-- A coordinate reference system known by name. -/
structure ReferenceSystem where
  name : String
  /-- Numbers per position, if stated. -/
  dimension : Option Nat
deriving DecidableEq, Repr

/-- What can be defined under an identifier. -/
inductive Definition
  | appearance (appearance : Appearance)
  | surfaceData (data : SurfaceData)
  | referenceSystem (system : ReferenceSystem)
  | template (geometry : Geometry)
deriving DecidableEq

/-- What a reference points at. -/
inductive ReferenceKind
  | appearance
  | surfaceData
  | referenceSystem
  | template
  | polygon
deriving DecidableEq, Repr

def ReferenceKind.name : ReferenceKind → String
  | appearance => "appearance"
  | surfaceData => "surface data"
  | referenceSystem => "CRS"
  | template => "geometry template"
  | polygon => "polygon"

/-- The kind of reference that a definition answers. -/
def Definition.kind : Definition → ReferenceKind
  | .appearance _ => .appearance
  | .surfaceData _ => .surfaceData
  | .referenceSystem _ => .referenceSystem
  | .template _ => .template

/-- Definitions by identifier, in the order in which identifiers were first defined. -/
abbrev Registry := Table Definition

/-- A mention of something by its identifier. -/
structure Reference where
  id : String
  kind : ReferenceKind
  /-- The object or definition that mentions it. -/
  referrer : Option String := none
deriving DecidableEq, Repr

namespace Reference

/-- The reference that a link text makes. -/
def ofLink (link : String) (kind : ReferenceKind) (referrer : Option String) : Reference :=
  ⟨Text.withoutFragmentMark link, kind, referrer⟩

def text (r : Reference) : String :=
  match r.referrer with
  | some referrer => s!"{r.kind.name} '{r.id}' (referenced by {referrer})"
  | none => s!"{r.kind.name} '{r.id}'"

end Reference

end CityScene
