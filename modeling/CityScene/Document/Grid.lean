import CityScene.Coverage
import CityScene.Diagnostic

/-!
# Parts of a grid

The parts of a rectified grid are collected from elements in any order and put together at the end.
A grid element without any part has no coverage.
-/

namespace CityScene.Document

structure GridParts where
  origin : Option (Vec3 Float) := none
  offsetVectors : List (Vec3 Float) := []
  low : Option (List Int64) := none
  high : Option (List Int64) := none
  samples : Option (List Float) := none
  file : Option String := none
deriving DecidableEq, Repr

namespace GridParts

def isUntouched (g : GridParts) : Bool :=
  g.origin.isNone && g.offsetVectors.isEmpty && g.low.isNone && g.high.isNone &&
    g.samples.isNone && g.file.isNone

/-- The first two components of a limit. -/
def corner? : List Int64 → Option (Int64 × Int64)
  | x :: y :: _ => some (x, y)
  | _ => none

/-- The number of positions from one to another, both included. -/
def span (first last : Int64) : Except Overflow Int64 := do
  Checked.addSigned (← Checked.subSigned last first) 1

/-- The samples; inline ones go before a file. -/
def gridSamples? (g : GridParts) : Option GridSamples :=
  match g.samples, g.file with
  | some values, _ => some (.inline values)
  | none, some file => some (.external file)
  | none, none => none

/-- The coverage over so many columns and rows. -/
def extended (g : GridParts) (origin columnOffset rowOffset : Vec3 Float) (columns rows : Int64) :
    Except GridPartsFault GridCoverage := do
  if columns ≤ 0 ∨ rows ≤ 0 then throw (.emptyGrid rows.toInt columns.toInt)
  let some samples := g.gridSamples? | throw .noSamples
  return ⟨origin, columnOffset, rowOffset, rows.toUInt64, columns.toUInt64, samples⟩

/-- Puts the parts together, all of which must be there; only the lower limit may be left out. -/
def assemble (g : GridParts) : Except Overflow (Except GridPartsFault GridCoverage) := do
  let some origin := g.origin | return .error .noOrigin
  let [columnOffset, rowOffset] := g.offsetVectors
    | return .error (.offsetVectors g.offsetVectors.length)
  let some high := g.high | return .error .noUpperLimit
  let some low := corner? (g.low.getD [0, 0]) | return .error .limitComponents
  let some high := corner? high | return .error .limitComponents
  let columns ← span low.1 high.1
  let rows ← span low.2 high.2
  return g.extended origin columnOffset rowOffset columns rows

/-- The coverage, if there are any parts. -/
def build (g : GridParts) : Except Overflow (Except GridPartsFault (Option GridCoverage)) :=
  if g.isUntouched then .ok (.ok none) else g.assemble.map (·.map some)

end GridParts

end CityScene.Document
