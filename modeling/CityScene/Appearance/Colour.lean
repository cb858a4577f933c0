import CityScene.Text.Blank
import CityScene.Decimal.Numeral
import CityScene.Decimal.Shortest

/-!
# Colours

A colour is written as blank-separated components between zero and one.
-/

namespace CityScene

structure Colour where
  red : Float
  green : Float
  blue : Float
deriving DecidableEq, Repr

/-- A colour with an opacity. -/
structure ColourAlpha where
  red : Float
  green : Float
  blue : Float
  alpha : Float
deriving DecidableEq, Repr

/-- Why a text is no colour. -/
inductive ColourFault
  | component (text : String)
  | count (text : String) (found expected : Nat)
  | range (value : Float)
deriving DecidableEq, Repr

def ColourFault.message : ColourFault → String
  | .component text => s!"Invalid colour component '{text}'"
  | .count text found expected => s!"Colour '{text}' has {found} components, expected {expected}"
  | .range value => s!"Colour component {Decimal.text value} is outside [0, 1]"

/-- The number lies between zero and one. -/
def inUnitInterval (x : Float) : Bool :=
  0.0 ≤ x && x ≤ 1.0

/-- Reads one number of a colour. -/
def readComponent (cs : List Char) : Except ColourFault Float :=
  match Decimal.readFloat cs with
  | .ok x => .ok x
  | .error _ => .error (.component (String.ofList cs))

/-- Reads the given number of components.  All must be numbers before they are counted, and
counted before their range is checked. -/
def readComponents (s : String) (expected : Nat) : Except ColourFault (List Float) := do
  let components ← (Text.words s.toList).mapM readComponent
  if components.length ≠ expected then
    throw (.count (Text.trimmed s) components.length expected)
  match components.find? (!inUnitInterval ·) with
  | some x => throw (.range x)
  | none => return components

def Colour.parse (s : String) : Except ColourFault Colour := do
  match ← readComponents s 3 with
  | [r, g, b] => return ⟨r, g, b⟩
  | found => throw (.count (Text.trimmed s) found.length 3)

def ColourAlpha.parse (s : String) : Except ColourFault ColourAlpha := do
  match ← readComponents s 4 with
  | [r, g, b, a] => return ⟨r, g, b, a⟩
  | found => throw (.count (Text.trimmed s) found.length 4)

end CityScene
