import CityScene.Reference
import CityScene.Kind
import CityScene.Text.Quoted

/-!
# Reading options

Which objects and levels of detail are read, what is done to rings and coordinates, and when
polygons are tessellated.
-/

namespace CityScene

/-- When polygons get their meshes. -/
inductive TessellationMode
  /-- As each polygon is complete. -/
  | eager
  /-- All at the end of the document. -/
  | deferred
  | disabled
deriving DecidableEq, Repr

def TessellationMode.name : TessellationMode → String
  | eager => "Eager"
  | deferred => "Deferred"
  | disabled => "Disabled"

/-- A range of levels of detail, ends included. -/
structure LodRange where
  least : Nat
  greatest : Nat
  ordered : least ≤ greatest
deriving DecidableEq, Repr

namespace LodRange

/-- The range between two levels given in any order. -/
def between (a b : Nat) : LodRange :=
  ⟨min a b, max a b, by omega⟩

def contains (r : LodRange) (lod : Nat) : Bool :=
  r.least ≤ lod && lod ≤ r.greatest

end LodRange

/-- A change of the coordinate reference system. -/
structure Reprojection where
  /-- The new place of a point given in a named system, or `none` to leave it where it is. -/
  transform : String → Vec3 Float → Option (Vec3 Float)
  /-- Name of the system that points end up in. -/
  destination : Option String := none

structure Config where
  lods : LodRange := .between 0 4
  /-- The kinds of objects to read, or `none` for all. -/
  kinds : Option (List Kind) := none
  mode : TessellationMode := .eager
  /-- Give every vertex a normal of its own. -/
  smooth : Bool := false
  /-- Drop objects that turn out empty. -/
  prune : Bool := false
  /-- Refuse rings that do not repeat their first point at the end. -/
  closedRings : Bool := false
  reprojection : Option Reprojection := none
  /-- Definitions to fall back on. -/
  shared : Option Registry := none

namespace Config

def acceptsLod (c : Config) (lod : Nat) : Bool :=
  c.lods.contains lod

def acceptsKind (c : Config) (kind : Kind) : Bool :=
  match c.kinds with
  | none => true
  | some kinds => kinds.contains kind

/-- Name of the system that points end up in, if they are moved to a named one. -/
def destination? (c : Config) : Option String :=
  c.reprojection.bind (·.destination)

/-- How an optional value is listed. -/
def listedOption : Option String → String
  | none => "None"
  | some s => s!"Some({s})"

/-- A group of listed values between braces. -/
def listedGroup (opening closing : String) (items : List String) : String :=
  opening ++ ", ".intercalate items ++ closing

/-- All options in one line. -/
def text (c : Config) : String :=
  let flag (b : Bool) := if b then "true" else "false"
  let kinds := c.kinds.map fun kinds => listedGroup "\x7b" "\x7d" (kinds.eraseDups.map (·.label))
  listedGroup "ParserConfig \x7b " " \x7d"
    [s!"lod_range: ({c.lods.least}, {c.lods.greatest})",
     s!"enabled_kinds: {listedOption kinds}",
     s!"tessellation_mode: {c.mode.name}",
     s!"tessellation_options: TessellationOptions \x7b smooth_normals: {flag c.smooth} \x7d",
     s!"prune_empty_objects: {flag c.prune}",
     s!"require_closed_rings: {flag c.closedRings}",
     s!"has_crs_transform: {flag c.reprojection.isSome}",
     s!"destination_srs: {listedOption (c.destination?.map Text.quoted)}",
     s!"shared_registry_len: {listedOption (c.shared.map fun r => toString r.size)}"]

end Config

end CityScene
