import CityScene.Space.Ring
import CityScene.Tessellation.Failure

/-!
# How the rings of a polygon lie to each other

`checkTopology` accepts the flattened rings of a polygon if no ring meets itself, every hole lies
inside the exterior and does not retrace it, and no two holes overlap.  Rings may touch.  All tests
work up to a tolerance: a point that close to a segment is on it.
-/

namespace CityScene.Tessellation

variable {K : Type} [Scalar K]

/-- Drops a point that repeats the one before it. -/
def dropRepeats : List (Vec2 K) → List (Vec2 K)
  | [] => []
  | p :: rest => p :: go p rest
where
  /-- The points that differ from the one kept last, which is `kept` at first. -/
  go (kept : Vec2 K) : List (Vec2 K) → List (Vec2 K)
    | [] => []
    | p :: rest => if p == kept then go kept rest else p :: go p rest

/-- Drops points at the end that repeat the first one, which always stays. -/
def dropClosing : List (Vec2 K) → List (Vec2 K)
  | [] => []
  | p :: rest => p :: (rest.reverse.dropWhile (p == ·)).reverse

/-- The ring without consecutive repetitions, so that every edge has a length. -/
def dedupRing (points : List (Vec2 K)) : List (Vec2 K) :=
  dropClosing (dropRepeats points)

/-- Twice the signed area of a triangle: on which side of the line `a b` the point `c` lies. -/
def orientation (a b c : Vec2 K) : K :=
  (b.x - a.x) * (c.y - a.y) - (b.y - a.y) * (c.x - a.x)

/-- The sign of a value, zero within the tolerance. -/
def sign (value tolerance : K) : Int :=
  if tolerance < value then 1 else if value < -tolerance then -1 else 0

/-- The point lies on the segment. -/
def onSegment (p a b : Vec2 K) (tolerance : K) : Bool :=
  let length := (b - a).norm
  sign (orientation a b p) (tolerance * Scalar.larger length tolerance) == 0 &&
    decide (Scalar.smaller a.x b.x - tolerance ≤ p.x) &&
    decide (p.x ≤ Scalar.larger a.x b.x + tolerance) &&
    decide (Scalar.smaller a.y b.y - tolerance ≤ p.y) &&
    decide (p.y ≤ Scalar.larger a.y b.y + tolerance)

/-- On which sides of the segment `q` the ends of the segment `p` lie. -/
def sides (p q : Vec2 K × Vec2 K) (tolerance : K) : Int × Int :=
  let reach := tolerance * Scalar.larger (q.2 - q.1).norm tolerance
  (sign (orientation q.1 q.2 p.1) reach, sign (orientation q.1 q.2 p.2) reach)

/-- The interiors of the segments cross. -/
def segmentsCross (p q : Vec2 K × Vec2 K) (tolerance : K) : Bool :=
  let d := sides p q tolerance
  let e := sides q p tolerance
  decide (d.1 * d.2 < 0) && decide (e.1 * e.2 < 0)

/-- The segments have a point in common. -/
def segmentsMeet (p q : Vec2 K × Vec2 K) (tolerance : K) : Bool :=
  let d := sides p q tolerance
  let e := sides q p tolerance
  segmentsCross p q tolerance ||
    (d.1 == 0 && onSegment p.1 q.1 q.2 tolerance) ||
    (d.2 == 0 && onSegment p.2 q.1 q.2 tolerance) ||
    (e.1 == 0 && onSegment q.1 p.1 p.2 tolerance) ||
    (e.2 == 0 && onSegment q.2 p.1 p.2 tolerance)

/-- Two edges of a ring that are no neighbours meet. -/
def ringMeetsItself (ring : List (Vec2 K)) (tolerance : K) : Bool :=
  let edges := (ringEdges ring).zipIdx
  edges.any fun (e, i) =>
    (edges.drop (i + 2)).any fun (f, j) =>
      -- the first and the last edge share the closing vertex
      !(i == 0 && j + 1 == ring.length) && segmentsMeet e f tolerance

/-- Where a point lies relative to a ring. -/
inductive Location
  | inside
  | outside
  | boundary
deriving DecidableEq, Repr

/-- The ray from the point toward growing `x` crosses the edge. -/
def rayCrosses (p : Vec2 K) (e : Vec2 K × Vec2 K) : Bool :=
  let (a, b) := e
  decide (p.y < a.y) != decide (p.y < b.y) &&
    decide (p.x < a.x + (p.y - a.y) * (b.x - a.x) / (b.y - a.y))

/-- A point is inside a ring when a ray from it crosses the ring an odd number of times. -/
def locate (p : Vec2 K) (ring : List (Vec2 K)) (tolerance : K) : Location :=
  let edges := ringEdges ring
  if edges.any fun e => onSegment p e.1 e.2 tolerance then .boundary
  else if (edges.countP (rayCrosses p)) % 2 = 1 then .inside
  else .outside

/-- Some edges of the two rings cross. -/
def ringsCross (a b : List (Vec2 K)) (tolerance : K) : Bool :=
  (ringEdges a).any fun e => (ringEdges b).any fun f => segmentsCross e f tolerance

/-- The reason to refuse a hole in the exterior, if there is one. -/
def holeFault? (exterior : List (Vec2 K)) (hole : List (Vec2 K)) (index : Nat) (tolerance : K) :
    Option (Failure K) :=
  let locations := hole.map (locate · exterior tolerance)
  if ringMeetsItself hole tolerance then some (.selfIntersection (index + 1))
  else if locations.all (· == .boundary) then some (.holeCoincidentWithExterior index)
  else if locations.contains .outside || ringsCross hole exterior tolerance then
    some (.holeOutsideExterior index)
  else none

/-- The two holes cover a common area. -/
def holesOverlap (a b : List (Vec2 K)) (tolerance : K) : Bool :=
  ringsCross a b tolerance ||
    a.any (fun p => locate p b tolerance == .inside) ||
    b.any (fun p => locate p a tolerance == .inside) ||
    a.all (fun p => locate p b tolerance == .boundary)

/-- The first pair of overlapping holes, in the order of the list. -/
def overlapFault? (holes : List (List (Vec2 K))) (tolerance : K) : Option (Failure K) :=
  let numbered := holes.zipIdx
  numbered.findSome? fun (a, i) =>
    (numbered.drop (i + 1)).findSome? fun (b, j) =>
      if holesOverlap a b tolerance then some (.overlappingHoles i j) else none

/-- Accepts the rings of a polygon, or names the first reason against them. -/
def checkTopology (exterior : List (Vec2 K)) (holes : List (List (Vec2 K))) (tolerance : K) :
    Except (Failure K) Unit :=
  let exterior := dedupRing exterior
  let holes := holes.map dedupRing
  if ringMeetsItself exterior tolerance then .error (.selfIntersection 0)
  else
    let holeFault := holes.zipIdx.findSome? fun (hole, i) => holeFault? exterior hole i tolerance
    match holeFault.or (overlapFault? holes tolerance) with
    | some fault => .error fault
    | none => .ok ()

end CityScene.Tessellation
