import CityScene.Space.Vec

/-!
# Envelopes

An axis-aligned box around points.  An envelope starts out empty and only grows: by points, of
which those with a coordinate that is not finite are passed over, and by other envelopes.
-/

namespace CityScene

/-- The least axis-aligned box around some points, or no box as long as there are none. -/
inductive Envelope (K : Type)
  | empty
  | box (lower upper : Vec3 K)
deriving DecidableEq, Repr

namespace Envelope

variable {K : Type} [Scalar K]

instance : EmptyCollection (Envelope K) := ⟨.empty⟩

/-- Componentwise the smaller coordinates. -/
def inf (p q : Vec3 K) : Vec3 K :=
  ⟨if p.x ≤ q.x then p.x else q.x, if p.y ≤ q.y then p.y else q.y, if p.z ≤ q.z then p.z else q.z⟩

/-- Componentwise the larger coordinates. -/
def sup (p q : Vec3 K) : Vec3 K :=
  ⟨if q.x ≤ p.x then p.x else q.x, if q.y ≤ p.y then p.y else q.y, if q.z ≤ p.z then p.z else q.z⟩

/-- The envelope grown to hold a point. -/
def addPoint (e : Envelope K) (p : Vec3 K) : Envelope K :=
  if p.isFinite then
    match e with
    | empty => box p p
    | box lower upper => box (inf lower p) (sup upper p)
  else e

/-- The envelope grown to hold another one. -/
def union (e f : Envelope K) : Envelope K :=
  match e, f with
  | e, empty => e
  | empty, f => f
  | box lower upper, box lower' upper' => box (inf lower lower') (sup upper upper')

/-- The least envelope around the points. -/
def ofPoints (points : List (Vec3 K)) : Envelope K :=
  points.foldl addPoint empty

/-- The box between two corners given in any order. -/
def ofCorners (p q : Vec3 K) : Envelope K :=
  (empty.addPoint p).addPoint q

def isValid : Envelope K → Bool
  | empty => false
  | box _ _ => true

def center? : Envelope K → Option (Vec3 K)
  | empty => none
  | box lower upper => some ((lower + upper).scale 0.5)

/-- The extent along each axis. -/
def size? : Envelope K → Option (Vec3 K)
  | empty => none
  | box lower upper => some (upper - lower)

/-- The point lies in the box or on its boundary. -/
def containsPoint (e : Envelope K) (p : Vec3 K) : Bool :=
  match e with
  | empty => false
  | box lower upper =>
    decide (lower.x ≤ p.x) && decide (p.x ≤ upper.x) &&
      (decide (lower.y ≤ p.y) && decide (p.y ≤ upper.y)) &&
      (decide (lower.z ≤ p.z) && decide (p.z ≤ upper.z))

/-- The other envelope lies entirely inside; an empty one lies inside every envelope. -/
def containsEnvelope (e f : Envelope K) : Bool :=
  match f with
  | empty => true
  | box lower upper => e.containsPoint lower && e.containsPoint upper

end Envelope

end CityScene
