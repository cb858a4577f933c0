import CityScene.Space.Envelope

/-!
# Linear rings

A ring holds its points without the closing one: a last point that repeats the first is dropped when
the ring is made.  Rings with fewer than three different points are refused.
-/

namespace CityScene

structure LinearRing where
  id : Option String
  points : List (Vec3 Float)
deriving DecidableEq, Repr

/-- How messages name something that may have no identifier. -/
def nameOrAnonymous (id : Option String) : String :=
  id.getD "<anonymous>"

/-- Why a ring is refused. -/
inductive RingFault
  | unreadable (id : Option String)
  | notClosed (id : Option String)
  | tooFewPoints (id : Option String) (count : Nat)
  /-- A reason stated in words. -/
  | stated (reason : String)
deriving DecidableEq, Repr

def RingFault.message : RingFault → String
  | .unreadable id => s!"Ring {nameOrAnonymous id} has unreadable coordinates"
  | .notClosed id => s!"Ring {nameOrAnonymous id} is not explicitly closed"
  | .tooFewPoints id count =>
    s!"Ring {nameOrAnonymous id} has {count} distinct points (minimum 3 required)"
  | .stated reason => reason

namespace LinearRing

/-- The points end where they start, after at least one step. -/
def isClosed (points : List (Vec3 Float)) : Bool :=
  match points.head?, points.getLast? with
  | some first, some last => decide (1 < points.length) && first == last
  | _, _ => false

/-- The ring through the points of a document. -/
def ofPoints (id : Option String) (points : List (Vec3 Float)) (requireClosed : Bool) :
    Except RingFault LinearRing :=
  let closed := isClosed points
  let kept := if closed then points.dropLast else points
  if requireClosed && !closed then .error (.notClosed id)
  else if distinctCount kept < 3 then .error (.tooFewPoints id (distinctCount kept))
  else .ok ⟨id, kept⟩

def length (r : LinearRing) : Nat :=
  r.points.length

def envelope (r : LinearRing) : Envelope Float :=
  Envelope.ofPoints r.points

end LinearRing

end CityScene
