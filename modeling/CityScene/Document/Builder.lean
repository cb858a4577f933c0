import CityScene.Config
import CityScene.Document.Delivery
import CityScene.Model.Resolution
import CityScene.Model.Tessellation

/-!
# The state of reading

A `Builder` is what has been read of a document: the model so far, the open elements, the reports on
faults, and the number of identifiers that were generated for elements without one.
-/

namespace CityScene.Document

structure Builder where
  model : Model := {}
  stack : Stack := []
  diagnostics : List Diagnostic := []
  /-- Byte offset of the event at hand. -/
  offset : Option Nat := none
  /-- An event was refused, so all later ones are. -/
  isAborted : Bool := false
  /-- How many identifiers were generated. -/
  generated : Nat := 0

namespace Builder

/-- Nothing has been read yet. -/
def start (config : Config) : Builder :=
  { model := { shared := config.shared } }

/-- The number of open elements. -/
def depth (b : Builder) : Nat :=
  b.stack.length

/-- The context of an error at an element. -/
def context (b : Builder) (element : String) : Context :=
  { element := some element, offset := b.offset }

def report (b : Builder) (problem : Problem) (element : Option String) : Builder :=
  { b with diagnostics := b.diagnostics ++ [⟨problem, element⟩] }

/-- The given identifier, or a new one with a stem. -/
def identify (b : Builder) (id : Option String) (stem : String) : Builder × String :=
  match id with
  | some id => (b, id)
  | none => ({ b with generated := b.generated + 1 }, s!"{stem}_{b.generated + 1}")

def recordReference (b : Builder) (id : String) (kind : ReferenceKind) (referrer : Option String) :
    Builder :=
  { b with model := b.model.recordReference (.ofLink id kind referrer) }

/-- Registers a reference system when its name is first used, with the dimension stated there, and
records that it is mentioned. -/
def mentionSystem (b : Builder) (name : String) (attributes : Markup.Attributes) : Builder :=
  let dimension := (attributes.value? "srsDimension").bind fun d =>
    Decimal.readCount? (Decimal.greatest 8) (Text.trim d.toList)
  let model := if b.model.registry.contains name then b.model
    else b.model.register name (.referenceSystem ⟨name, dimension⟩)
  { b with model }.recordReference name .referenceSystem b.stack.objectId?

/-- The dimension of a reference system, if it is known. -/
def systemDimension? (b : Builder) (srs : Option String) : Option Nat :=
  match srs.bind b.model.resolve? with
  | some (.referenceSystem system) => system.dimension
  | _ => none

/-- The points in the system asked for.  Points of templates, and points of no known system, stay
where they are. -/
def reproject (config : Config) (b : Builder) (srs : Option String) (points : List (Vec3 Float)) :
    List (Vec3 Float) :=
  match config.reprojection, srs <|> b.model.srs with
  | some r, some name =>
    if b.stack.inTemplate then points else points.map fun p => (r.transform name p).getD p
  | _, _ => points

end Builder

end CityScene.Document
