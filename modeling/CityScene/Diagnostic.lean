import CityScene.Error
import CityScene.Reference
import CityScene.Attribute.Value

/-!
# Diagnostics

A `Diagnostic` reports a fault of content after which reading went on: a value that was passed over,
a polygon that was dropped, a mesh that is missing, a reference that leads nowhere.
-/

namespace CityScene

inductive DiagnosticKind
  | invalidRing
  | tessellationFailure
  | danglingReference
  | attributeTypeMismatch
  | invalidValue
deriving DecidableEq, Repr

def DiagnosticKind.text : DiagnosticKind → String
  | invalidRing => "invalid ring"
  | tessellationFailure => "tessellation failure"
  | danglingReference => "dangling reference"
  | attributeTypeMismatch => "attribute type mismatch"
  | invalidValue => "invalid value"

/-- Why the parts of a grid do not make up a coverage. -/
inductive GridPartsFault
  | noOrigin
  | offsetVectors (count : Nat)
  | noUpperLimit
  | limitComponents
  | emptyGrid (rows columns : Int)
  | noSamples
deriving DecidableEq, Repr

def GridPartsFault.message : GridPartsFault → String
  | noOrigin => "Grid has no origin"
  | offsetVectors count => s!"Grid has {count} offset vectors, expected 2"
  | noUpperLimit => "Grid has no upper limit"
  | limitComponents => "Grid limits need two components"
  | emptyGrid rows columns => s!"Grid limits give an empty {rows}x{columns} grid"
  | noSamples => "Grid has neither inline samples nor a file"

/-- What a diagnostic reports. -/
inductive Problem
  | ring (fault : RingFault)
  /-- A polygon without an exterior ring, by its identifier. -/
  | noExterior (polygon : Option String)
  | tessellation (failure : Tessellation.Failure Float)
  | dangling (reference : Reference)
  /-- The text of a thematic attribute is not of the type in the schema. -/
  | attributeType (name text : String) (type : ValueType)
  /-- The text of a generic attribute is not of the type that its element states. -/
  | genericType (name text : String) (type : ValueType)
  | unnamedAttribute
  | value (fault : Document.ValueFault)
  | grid (fault : GridPartsFault)
deriving DecidableEq, Repr

namespace Problem

def kind : Problem → DiagnosticKind
  | ring _ | noExterior _ => .invalidRing
  | tessellation _ => .tessellationFailure
  | dangling _ => .danglingReference
  | attributeType _ _ _ | genericType _ _ _ => .attributeTypeMismatch
  | unnamedAttribute | value _ | grid _ => .invalidValue

def message : Problem → String
  | ring fault => (Error.ring fault).message
  | noExterior polygon => s!"Polygon {nameOrAnonymous polygon} has no exterior ring"
  | tessellation failure => (Error.tessellation failure).message
  | dangling reference => (Error.danglingReference reference.text).message
  | attributeType name text type => s!"Attribute '{name}' value '{text}' is not a valid {type.name}"
  | genericType name text type =>
    s!"Generic attribute '{name}' value '{text}' is not a valid {type.name}"
  | unnamedAttribute => "Generic attribute without a name"
  | value fault => (Error.value fault).message
  | grid fault => fault.message

end Problem

structure Diagnostic where
  problem : Problem
  /-- The identifier of the object, polygon or definition concerned, if there is one. -/
  element : Option String
deriving DecidableEq, Repr

namespace Diagnostic

def kind (d : Diagnostic) : DiagnosticKind :=
  d.problem.kind

def message (d : Diagnostic) : String :=
  d.problem.message

def text (d : Diagnostic) : String :=
  match d.element with
  | some id => s!"{d.kind.text} ({id}): {d.message}"
  | none => s!"{d.kind.text}: {d.message}"

end Diagnostic

end CityScene
