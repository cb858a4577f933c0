import CityScene.Overflow
import CityScene.Space.Envelope

/-!
# Grid coverages

A rectified grid of elevation samples.  Columns run along the first offset vector and rows along the
second; samples are stored row by row, so cell `(row, column)` is sample `row * columns + column`.
Positions in the grid are machine words, and so is that index, which may overflow: the size of a grid
is not tied to the number of its samples.
-/

namespace CityScene

inductive GridSamples
  | inline (values : List Float)
  /-- The samples are in a file of that name, which is not read. -/
  | external (file : String)
deriving DecidableEq, Repr

/-- Why a grid has no sample to give. -/
inductive GridFault
  | outOfBounds (row column rows columns : UInt64)
  | externalSamples (file : String)
  | noCoverage
deriving DecidableEq, Repr

def GridFault.message : GridFault → String
  | .outOfBounds row column rows columns =>
    s!"Cell ({row.toNat}, {column.toNat}) is outside the {rows.toNat}x{columns.toNat} grid"
  | .externalSamples file => s!"Grid samples are stored externally in '{file}'"
  | .noCoverage => "Object has no grid coverage"

structure GridCoverage where
  /-- The position of cell `(0, 0)`. -/
  origin : Vec3 Float
  columnOffset : Vec3 Float
  rowOffset : Vec3 Float
  rows : UInt64
  columns : UInt64
  samples : GridSamples
deriving DecidableEq, Repr

namespace GridCoverage

/-- The index of a cell among the samples. -/
def sampleIndex (g : GridCoverage) (row column : UInt64) : Except Overflow UInt64 := do
  Checked.add (← Checked.mul row g.columns) column

/-- The sample of a cell. -/
def sampleAt (g : GridCoverage) (row column : UInt64) : Except Overflow (Except GridFault Float) :=
  let outside := GridFault.outOfBounds row column g.rows g.columns
  if g.rows ≤ row ∨ g.columns ≤ column then .ok (.error outside)
  else
    match g.samples with
    | .external file => .ok (.error (.externalSamples file))
    | .inline values =>
      (g.sampleIndex row column).map fun index => values[index.toNat]?.elim (.error outside) .ok

/-- The position of a cell.  Its height is the sample where there is one. -/
def pointAt (g : GridCoverage) (row column : UInt64) : Except Overflow (Vec3 Float) :=
  let p := g.origin + g.columnOffset.scale (Float.ofNat column.toNat) +
    g.rowOffset.scale (Float.ofNat row.toNat)
  (g.sampleAt row column).map fun
    | .ok height => { p with z := height }
    | .error _ => p

/-- The four corner points, around the grid. -/
def corners (g : GridCoverage) : Except Overflow (List (Vec3 Float)) := do
  let lastRow := if g.rows = 0 then 0 else g.rows - 1
  let lastColumn := if g.columns = 0 then 0 else g.columns - 1
  return [← g.pointAt 0 0, ← g.pointAt 0 lastColumn, ← g.pointAt lastRow lastColumn,
    ← g.pointAt lastRow 0]

def envelope (g : GridCoverage) : Except Overflow (Envelope Float) :=
  g.corners.map .ofPoints

end GridCoverage

end CityScene
