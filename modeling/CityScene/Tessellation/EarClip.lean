import CityScene.Decimal.Binary
import CityScene.Space.Mesh

/-!
# Ear clipping

`earClip` cuts a plane polygon with holes into triangles.  The corners of the polygon form closed
chains, each corner naming its neighbours by their place in one array, so that cutting a corner off
and splicing two chains are changes of a few links.

* Every hole is first spliced into the exterior along a bridge to a corner that its leftmost corner
  sees, so one chain is left.
* An ear is a convex corner whose triangle holds no reflex corner of the chain.  Ears are cut off in
  turn, the corner after a cut being skipped once to avoid slivers.
* When no ear is found, corners on straight runs are dropped; then small crossings of the chain
  with itself are cut off; last, the chain is split along a diagonal and both parts start anew.

For large polygons only corners whose place on a space-filling curve lies within that of the ear's
bounding box are tried against the ear.  The walks follow links, so each carries a bound on its
number of steps that no chain in the array exceeds.
-/

namespace CityScene.Tessellation

/-- One corner of a closed chain. -/
structure Corner where
  /-- The polygon point at this corner. -/
  point : Nat
  x : Float
  y : Float
  /-- Place of the corner before this one. -/
  prev : Nat
  /-- Place of the corner after this one. -/
  next : Nat
deriving Inhabited

/-- All corners made so far.  A corner that is cut off stays in its place with its old links. -/
structure Chains where
  corners : Array Corner

namespace Corner

/-- Twice the signed area of three corners, negative when they turn counter-clockwise. -/
def area (p q r : Corner) : Float :=
  (q.y - p.y) * (r.x - q.x) - (q.x - p.x) * (r.y - q.y)

def samePlace (p q : Corner) : Bool :=
  p.x == q.x && p.y == q.y

/-- The point `(x, y)` lies in the triangle or on its boundary. -/
def inTriangle (ax ay bx bY cx cy x y : Float) : Bool :=
  decide ((cx - x) * (ay - y) - (ax - x) * (cy - y) ≥ 0) &&
    decide ((ax - x) * (bY - y) - (bx - x) * (ay - y) ≥ 0) &&
    decide ((bx - x) * (cy - y) - (cx - x) * (bY - y) ≥ 0)

/-- The segments `p q` and `r s` cross, or have the same ends. -/
def crosses (p q r s : Corner) : Bool :=
  (p.samePlace r && q.samePlace s) || (p.samePlace s && q.samePlace r) ||
    ((decide (area p q r > 0) != decide (area p q s > 0)) &&
      (decide (area r s p > 0) != decide (area r s q > 0)))

end Corner

namespace Chains

def corner (c : Chains) (i : Nat) : Corner :=
  c.corners.getD i default

/-- How many corners have been made. -/
def size (c : Chains) : Nat :=
  c.corners.size

def push (c : Chains) (p : Corner) : Chains :=
  ⟨c.corners.push p⟩

def nextOf (c : Chains) (i : Nat) : Nat := (c.corner i).next

def prevOf (c : Chains) (i : Nat) : Nat := (c.corner i).prev

/-- Makes `j` follow `i`. -/
def link (c : Chains) (i j : Nat) : Chains :=
  ⟨(c.corners.modify i fun p => { p with next := j }).modify j fun p => { p with prev := i }⟩

/-- Takes a corner out of its chain. -/
def remove (c : Chains) (i : Nat) : Chains :=
  c.link (c.prevOf i) (c.nextOf i)

/-- The places from `i` up to `stop`, which is left out unless the walk starts there. -/
def walk (c : Chains) (i stop : Nat) : List Nat :=
  go (c.size + 1) i
where
  go : Nat → Nat → List Nat
    | 0, _ => []
    | steps + 1, i => i :: if c.nextOf i = stop then [] else go steps (c.nextOf i)

/-- The whole chain through a corner, starting there. -/
def cycle (c : Chains) (i : Nat) : List Nat :=
  c.walk i i

/-- The edges of the chain through a corner, starting there. -/
def edges (c : Chains) (i : Nat) : List (Corner × Corner) :=
  (c.cycle i).map fun j => (c.corner j, c.corner (c.nextOf j))

/-- Drops corners that repeat their successor or lie straight between their neighbours, walking from
`start` until a whole turn up to `stop` drops nothing.  The result lies on the chain. -/
def straighten (c : Chains) (start stop : Nat) : Chains × Nat :=
  go ((c.size + 2) * (c.size + 2) * 2) c start stop
where
  go : Nat → Chains → Nat → Nat → Chains × Nat
    | 0, c, _, stop => (c, stop)
    | steps + 1, c, i, stop =>
      let p := c.corner i
      let n := c.corner p.next
      if p.samePlace n || Corner.area (c.corner p.prev) p n == 0 then
        let c := c.remove i
        if c.nextOf p.prev = p.prev then (c, p.prev) else go steps c p.prev p.prev
      else if p.next = stop then (c, stop)
      else go steps c p.next stop

/-- The direction from corner `i` to corner `j` points into the polygon at `i`. -/
def seesFrom (c : Chains) (i j : Nat) : Bool :=
  let a := c.corner i
  let b := c.corner j
  let before := c.corner a.prev
  let after := c.corner a.next
  if Corner.area before a after < 0 then
    decide (Corner.area a b after ≥ 0) && decide (Corner.area a before b ≥ 0)
  else decide (Corner.area a b before < 0) || decide (Corner.area a after b < 0)

/-- Connects corners `i` and `j` by an edge in both directions, doubling them.  Two corners of one
chain split it, corners of two chains join them.  The result is the double of `j`. -/
def split (c : Chains) (i j : Nat) : Chains × Nat :=
  let a := c.corner i
  let b := c.corner j
  let i' := c.size
  let j' := c.size + 1
  let c := (c.push a).push b
  ((((c.link i j).link i' a.next).link j' i').link b.prev j', j')

end Chains

/-! ### Building the chains -/

/-- Sum of the edge trapezoids of a ring, positive when it runs clockwise. -/
def trapezoidSum (points : List (Nat × Vec2 Float)) : Float :=
  match points.getLast? with
  | none => 0
  | some last =>
    (points.foldl (fun (sum, before) (p : Nat × Vec2 Float) =>
      (sum + (before.x - p.2.x) * (p.2.y + before.y), p.2)) (0.0, last.2)).1

/-- Adds a closed chain through the numbered points, running clockwise or not as told.  The result
is the last corner and the first of the leftmost ones. -/
def Chains.addRing (c : Chains) (points : List (Nat × Vec2 Float)) (clockwise : Bool) :
    Chains × Nat × Nat :=
  let points := if clockwise == decide (trapezoidSum points > 0) then points else points.reverse
  let first := c.size
  let count := points.length
  let c := points.zipIdx.foldl (fun c ((point, p), i) =>
    c.push ⟨point, p.x, p.y, first + (i + count - 1) % count, first + (i + 1) % count⟩) c
  let visit := fun (best : Nat × Float) (i : Nat) =>
    if (c.corner (first + i)).x < best.2 then (first + i, (c.corner (first + i)).x) else best
  let leftmost := ((List.range count).foldl visit (first, Float.ofBits 0x7FEFFFFFFFFFFFFF)).1
  let last := first + count - 1
  if (c.corner last).samePlace (c.corner (c.nextOf last)) then
    (c.remove last, c.nextOf last, leftmost)
  else (c, last, leftmost)

/-! ### Bridges from holes to the exterior -/

/-- The edge of the chain through `outer` that a ray to the left from `hole` meets last, as the
place where the ray meets it and the end of the edge to connect to.  An end of the edge that is
the hole's own corner ends the search. -/
def leftEdge? (c : Chains) (hole outer : Nat) : Option (Float × Nat) ⊕ Nat :=
  let h := c.corner hole
  (c.cycle outer).foldl (fun found i =>
    match found with
    | .inr _ => found
    | .inl best =>
      let p := c.corner i
      let n := c.corner p.next
      let x := p.x + (h.y - p.y) * (n.x - p.x) / (n.y - p.y)
      let nearer := match best with
        | none => decide (-(1.0 / 0.0) < x)
        | some (qx, _) => decide (qx < x)
      if h.y ≤ p.y && h.y ≥ n.y && n.y != p.y && decide (x ≤ h.x) && nearer then
        if x == h.x && h.y == p.y then .inr i
        else if x == h.x && h.y == n.y then .inr p.next
        else .inl (some (x, if p.x < n.x then i else p.next))
      else found) (.inl none)

/-- The corner of the outer chain to connect a hole's leftmost corner to, or `none` if nothing lies
to its left. -/
def bridge? (c : Chains) (hole outer : Nat) : Option Nat :=
  match leftEdge? c hole outer with
  | .inr i => some i
  | .inl none => none
  | .inl (some (qx, m)) =>
    let h := c.corner hole
    if h.x == qx then some (c.prevOf m)
    else
      let mp := c.corner m
      -- of the corners in the triangle of ray and edge, the one with the flattest line to the hole
      let visit := fun (best : Nat × Float) (i : Nat) =>
        let p := c.corner i
        let inside := h.x > p.x && p.x ≥ mp.x &&
          Corner.inTriangle (if h.y < mp.y then h.x else qx) h.y mp.x mp.y
            (if h.y < mp.y then qx else h.x) h.y p.x p.y
        let slope := (h.y - p.y).abs / (h.x - p.x)
        if inside && (slope < best.2 || (slope == best.2 && p.x > (c.corner best.1).x)) &&
            c.seesFrom i hole then (i, slope)
        else best
      some ((c.walk mp.next m).foldl visit (m, Float.ofBits 0x7FEFFFFFFFFFFFFF / 2)).1

/-- Splices a hole into the outer chain.  A hole with nothing to its left is left out. -/
def spliceHole (c : Chains) (outer hole : Nat) : Chains × Nat :=
  let c := match bridge? c hole outer with
    | none => c
    | some m =>
      let (c, b) := c.split m hole
      (c.straighten b (c.nextOf b)).1
  c.straighten outer (c.nextOf outer)

/-- Adds the holes and splices them into the outer chain from left to right. -/
def spliceHoles (c : Chains) (outer : Nat) (holes : List (List (Nat × Vec2 Float))) :
    Chains × Nat :=
  let (c, starts) := holes.foldl (fun (c, starts) hole =>
    let (c, _, leftmost) := c.addRing hole false
    (c, starts ++ [leftmost])) (c, [])
  let starts := starts.mergeSort fun i j => (c.corner i).x ≤ (c.corner j).x
  starts.foldl (fun (c, outer) hole => spliceHole c outer hole) (c, outer)

/-! ### The order along the space-filling curve -/

/-- Spreads the bits of both halves of a word apart. -/
def spreadBits (v : UInt64) : UInt64 :=
  let v := (v ||| (v <<< 8)) &&& 0x00FF00FF00FF00FF
  let v := (v ||| (v <<< 4)) &&& 0x0F0F0F0F0F0F0F0F
  let v := (v ||| (v <<< 2)) &&& 0x3333333333333333
  (v ||| (v <<< 1)) &&& 0x5555555555555555

/-- The place of a point along the curve that interleaves the bits of its scaled coordinates. -/
def curvePlace (scale x y : Float) : Int32 :=
  let word (t : Float) : UInt64 := (Int64.ofInt (Decimal.integerPart (t * scale))).toUInt64
  let v := spreadBits ((word x <<< 32) ||| word y)
  ((v >>> 32) ||| (v <<< 1)).toUInt32.toInt32

/-! ### Cutting ears -/

/-- How corners are chosen to be tried against an ear. -/
inductive Search
  /-- Every corner past the ear. -/
  | all
  /-- The corners near the ear on the curve with the given scale. -/
  | near (scale : Float)

/-- The corner lies in the triangle of the ear at `b` and is not convex. -/
def blocks (c : Chains) (a b d : Corner) (i : Nat) : Bool :=
  let p := c.corner i
  Corner.inTriangle a.x a.y b.x b.y d.x d.y p.x p.y &&
    decide (Corner.area (c.corner p.prev) p (c.corner p.next) ≥ 0)

def isEar (c : Chains) (search : Search) (ear : Nat) : Bool :=
  let b := c.corner ear
  let a := c.corner b.prev
  let d := c.corner b.next
  decide (Corner.area a b d < 0) &&
    match search with
    | .all => !(c.walk d.next b.prev).any (blocks c a b d)
    | .near scale =>
      let least := fun (s t : Float) => if s < t then s else t
      let most := fun (s t : Float) => if s > t then s else t
      let first := curvePlace scale (least a.x (least b.x d.x)) (least a.y (least b.y d.y))
      let last := curvePlace scale (most a.x (most b.x d.x)) (most a.y (most b.y d.y))
      !((c.cycle ear).any fun i =>
        let place := curvePlace scale (c.corner i).x (c.corner i).y
        i != ear && i != b.prev && i != b.next && first ≤ place && place ≤ last &&
          blocks c a b d i)

/-- The chains and the triangles cut off them, latest first. -/
structure Clipping where
  chains : Chains
  cut : List Triangle

/-- Cuts ears off the chain at `ear` until a whole turn up to `stop` finds none.  The result is
where the turn ended, or `none` when the chain is used up. -/
def cutEars (search : Search) : Nat → Clipping → Nat → Nat → Clipping × Option Nat
  | 0, s, _, _ => (s, none)
  | steps + 1, s, ear, stop =>
    let e := s.chains.corner ear
    if isEar s.chains search ear then
      let t := Triangle.mk (s.chains.corner e.prev).point e.point (s.chains.corner e.next).point
      let chains := s.chains.remove ear
      let ear := chains.nextOf e.next
      let s := Clipping.mk chains (t :: s.cut)
      if ear = e.next then (s, if e.prev = e.next then none else some e.next)
      else cutEars search steps s ear ear
    else if stop = e.next then (s, if e.prev = e.next then none else some e.next)
    else cutEars search steps s e.next stop

/-- Cuts off the places where the chain crosses itself within two edges. -/
def cutCrossings : Nat → Clipping → Nat → Nat → Clipping × Nat
  | 0, s, i, _ => (s, i)
  | steps + 1, s, i, start =>
    let c := s.chains
    let p := c.corner i
    let a := c.corner p.prev
    let j := c.nextOf p.next
    let b := c.corner j
    if !a.samePlace b && Corner.crosses a p (c.corner p.next) b && c.seesFrom p.prev j &&
        c.seesFrom j p.prev then
      let s := Clipping.mk ((c.remove i).remove p.next) (⟨a.point, p.point, b.point⟩ :: s.cut)
      let i := s.chains.nextOf j
      if i = j then (s, i) else cutCrossings steps s i j
    else if p.next = start then (s, p.next)
    else cutCrossings steps s p.next start

/-- The segment between corners `i` and `j` runs inside the polygon. -/
def isDiagonal (c : Chains) (i j : Nat) : Bool :=
  let a := c.corner i
  let b := c.corner j
  let edges := c.edges i
  let mx := (a.x + b.x) / 2
  let my := (a.y + b.y) / 2
  a.point != b.point && (c.corner a.next).point != b.point && (c.corner a.prev).point != b.point &&
    !(edges.any fun (p, n) =>
      p.point != a.point && n.point != a.point && p.point != b.point && n.point != b.point &&
        Corner.crosses p n a b) &&
    c.seesFrom i j && c.seesFrom j i &&
    edges.countP (fun (p, n) =>
      (decide (p.y > my) != decide (n.y > my)) && n.y != p.y &&
        mx < (n.x - p.x) * (my - p.y) / (n.y - p.y) + p.x) % 2 == 1

/-- The first diagonal of the chain, taking its corners in order from `start`. -/
def diagonal? (c : Chains) (start : Nat) : Option (Nat × Nat) :=
  (c.cycle start).findSome? fun i =>
    let first := c.nextOf (c.nextOf i)
    let others := if first = c.prevOf i then [] else c.walk first (c.prevOf i)
    (others.find? (isDiagonal c i)).map fun j => (i, j)

/-- What is tried next on a chain without ears. -/
inductive Remedy
  | straighten
  | cutCrossings
  | split

/-- Cuts the chain at `ear` into triangles as far as ears and remedies go. -/
def clip (scale : Float) : Nat → Search → Remedy → Nat → Clipping → Clipping
  | 0, _, _, _, s => s
  | depth + 1, search, remedy, ear, s =>
    let turns := (s.chains.size + 2) * (s.chains.size + 2)
    if s.chains.nextOf ear = ear then s
    else
      match cutEars search turns s ear ear with
      | (s, none) => s
      | (s, some i) =>
        match remedy with
        | .straighten =>
          let (chains, i) := s.chains.straighten i i
          clip scale depth search .cutCrossings i { s with chains }
        | .cutCrossings =>
          let (s, i) := cutCrossings turns s i i
          clip scale depth search .split i s
        | .split =>
          match diagonal? s.chains i with
          | none => s
          | some (i, j) =>
            let (chains, k) := s.chains.split i j
            let afterI := chains.nextOf i
            let afterK := chains.nextOf k
            let (chains, i) := chains.straighten i afterI
            let (chains, k) := chains.straighten k afterK
            clip scale depth (.near scale) .straighten k
              (clip scale depth (.near scale) .straighten i { s with chains })

/-- How far a list of numbers reaches: the least and the greatest. -/
def span (values : List Float) : Float × Float :=
  match values with
  | [] => (0, 0)
  | v :: rest =>
    rest.foldl (fun (lo, hi) v => (if v < lo then v else lo, if v > hi then v else hi)) (v, v)

/-- Polygons with at least this many points are searched along the curve. -/
def curveThreshold : Nat := 40

/-- Cuts a polygon into triangles over the indices of its points.  The points are those of the
exterior followed by those of the holes, which start at the given indices. -/
def earClip (points : List (Vec2 Float)) (holeStarts : List Nat) : List Triangle :=
  let numbered := points.zipIdx.map fun (p, i) => (i, p)
  let ends := holeStarts.drop 1 ++ [points.length]
  let exterior := numbered.take (holeStarts.headD points.length)
  let holes := (holeStarts.zip ends).map fun (start, stop) => (numbered.take stop).drop start
  let (c, outer, _) := Chains.addRing ⟨#[]⟩ exterior true
  let (c, outer) := spliceHoles c outer holes
  let depth := 3 * c.size + 3
  let cut :=
    if points.length < curveThreshold then
      clip 0 depth .all .straighten outer ⟨c, []⟩
    else
      let (left, right) := span (points.map (·.x))
      let (bottom, top) := span (points.map (·.y))
      let extent := if right - left > top - bottom then right - left else top - bottom
      let scale := if extent == 0 then 0 else 32767.0 / extent
      let c := Chains.mk (c.corners.map fun p => { p with x := p.x - left, y := p.y - bottom })
      clip scale depth (.near scale) .straighten outer ⟨c, []⟩
  cut.cut.reverse

end CityScene.Tessellation
