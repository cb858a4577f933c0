import CityScene.Text.Blank
import CityScene.Decimal.Numeral
import CityScene.Appearance.Colour
import CityScene.Appearance.Basic
import CityScene.Surface.Geometry

/-!
# Values in element text

Readers for the texts of elements: lists of numbers, positions, flags and the like.  Numbers must be
finite.  A list is read number by number, so the first number that cannot be read is the one that is
reported, before any count is checked.
-/

namespace CityScene.Document

/-- Why the text of an element cannot be read. -/
inductive ValueFault
  | float (fault : Decimal.FloatFault)
  | integer (fault : Decimal.IntegerFault)
  /-- The text of a field is not what is expected there. -/
  | unexpected (field value expected : String)
  | colour (fault : ColourFault)
  | wrapMode (fault : WrapModeFault)
  | dimension (field : String) (dimension : Nat)
  /-- A number of values that positions of some dimension cannot use up. -/
  | ragged (field : String) (count dimension : Nat)
  | notTwoOrThree (field : String) (count : Nat)
  | tuple (text : String) (count : Nat)
  | odd (field : String) (count : Nat)
  | notSixteen (field : String) (count : Nat)
deriving DecidableEq, Repr

def ValueFault.message : ValueFault → String
  | float fault => s!"Failed to parse floating-point number: {fault.message}"
  | integer fault => s!"Failed to parse integer: {fault.message}"
  | unexpected field value expected =>
    s!"Failed to parse '{field}': expected {expected}, got '{value}'"
  | colour fault => fault.message
  | wrapMode fault => fault.message
  | dimension field d => s!"{field}: unsupported coordinate dimension {d}"
  | ragged field count d => s!"{field}: {count} values do not form {d}D coordinates"
  | notTwoOrThree field count => s!"{field}: expected 2 or 3 values, got {count}"
  | tuple text count => s!"coordinates: tuple '{text}' has {count} components"
  | odd field count => s!"{field}: odd number of values ({count})"
  | notSixteen field count => s!"{field}: expected 16 values, got {count}"

/-- Reads a finite number. -/
def readFinite (field : String) (token : List Char) : Except ValueFault Float :=
  match Decimal.readFloat token with
  | .ok x =>
    if x.isFinite then .ok x
    else .error (.unexpected field (String.ofList token) "finite floating-point number")
  | .error _ => .error (.unexpected field (String.ofList token) "finite floating-point number")

/-- Reads blank-separated finite numbers. -/
def readFloats (field text : String) : Except ValueFault (List Float) :=
  (Text.words text.toList).mapM (readFinite field)

/-- Reads blank-separated integers. -/
def readIntegers (field text : String) : Except ValueFault (List Int64) :=
  (Text.words text.toList).mapM fun token =>
    (Decimal.readInt64 token).mapError fun _ => .unexpected field (String.ofList token) "integer"

/-! ## Positions -/

/-- Groups numbers into points of the plane; they get a height of zero. -/
def pairs : List Float → List (Vec3 Float)
  | x :: y :: rest => ⟨x, y, 0.0⟩ :: pairs rest
  | _ => []

/-- Groups numbers into points of space. -/
def triples : List Float → List (Vec3 Float)
  | x :: y :: z :: rest => ⟨x, y, z⟩ :: triples rest
  | _ => []

/-- The point with the given two or three coordinates. -/
def point? : List Float → Option (Vec3 Float)
  | [x, y] => some ⟨x, y, 0.0⟩
  | [x, y, z] => some ⟨x, y, z⟩
  | _ => none

/-- Reads a list of positions of a dimension, which must be two or three. -/
def readPositions (text : String) (dimension : Nat) : Except ValueFault (List (Vec3 Float)) := do
  let field := "posList"
  let values ← readFloats field text
  if dimension ≠ 2 ∧ dimension ≠ 3 then throw (.dimension field dimension)
  if values.length % dimension ≠ 0 then throw (.ragged field values.length dimension)
  return if dimension = 2 then pairs values else triples values

/-- Reads two or three numbers as a point or vector. -/
def readPoint (field text : String) : Except ValueFault (Vec3 Float) := do
  let values ← readFloats field text
  match point? values with
  | some p => return p
  | none => throw (.notTwoOrThree field values.length)

/-- The separators of coordinate tuples. -/
structure Separators where
  decimal : Char := '.'
  component : Char := ','
  tuple : Char := ' '
deriving DecidableEq, Repr

/-- The texts of the tuples.  A blank separator stands for any run of blanks; with another one,
blanks around tuples and empty tuples are dropped. -/
def Separators.tuples (s : Separators) (text : List Char) : List (List Char) :=
  if Text.isBlank s.tuple then Text.words text
  else ((Text.pieces (· == s.tuple) text).map Text.trim).filter (!·.isEmpty)

/-- Reads one number of a tuple. -/
def Separators.readComponent (s : Separators) (component : List Char) : Except ValueFault Float :=
  let decimal (c : Char) := if c == s.decimal then '.' else c
  readFinite "coordinates" ((Text.trim component).map decimal)

/-- Reads one tuple. -/
def Separators.readTuple (s : Separators) (text : List Char) : Except ValueFault (Vec3 Float) := do
  let values ← (Text.pieces (· == s.component) text).mapM s.readComponent
  match point? values with
  | some p => return p
  | none => throw (.tuple (String.ofList text) values.length)

/-- Reads coordinate tuples. -/
def readCoordinates (text : String) (s : Separators) : Except ValueFault (List (Vec3 Float)) :=
  (s.tuples text.toList).mapM s.readTuple

/-- Groups numbers into points of a texture image. -/
def texturePoints : List Float → List (Vec2 Float)
  | s :: t :: rest => ⟨s, t⟩ :: texturePoints rest
  | _ => []

/-- Reads texture coordinates. -/
def readTextureCoordinates (text : String) : Except ValueFault (List (Vec2 Float)) := do
  let field := "textureCoordinates"
  let values ← readFloats field text
  if values.length % 2 ≠ 0 then throw (.odd field values.length)
  return texturePoints values

/-! ## Other values -/

/-- Reads the sixteen entries of a matrix, row by row. -/
def readMatrix (text : String) : Except ValueFault Matrix4 := do
  let field := "transformationMatrix"
  let values ← readFloats field text
  if values.length ≠ 16 then throw (.notSixteen field values.length)
  return .ofRows values

def readFlag (field text : String) : Except ValueFault Bool :=
  match text with
  | "true" | "1" => .ok true
  | "false" | "0" => .ok false
  | _ => .error (.unexpected field text "boolean")

/-- Reads a number between zero and one. -/
def readFraction (field text : String) : Except ValueFault Float :=
  match Decimal.readFloat text.toList with
  | .error _ => .error (.unexpected field text "floating-point number")
  | .ok x =>
    if inUnitInterval x then .ok x else .error (.unexpected field text "value in [0, 1]")

def readColour (text : String) : Except ValueFault Colour :=
  (Colour.parse text).mapError .colour

def readColourAlpha (text : String) : Except ValueFault ColourAlpha :=
  (ColourAlpha.parse text).mapError .colour

def readWrapMode (text : String) : Except ValueFault WrapMode :=
  (WrapMode.parse text).mapError .wrapMode

/-- Reads grid samples, separated by blanks or commas. -/
def readSamples (text : String) : Except ValueFault (List Float) :=
  readFloats "tupleList" (String.ofList (text.toList.map fun c => if c == ',' then ' ' else c))

end CityScene.Document
