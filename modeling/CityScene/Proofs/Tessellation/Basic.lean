import CityScene.Tessellation.Basic

/-!
# Meshes and failures

`Tessellates` lists the ways in which tessellation can end, and `tessellates` says that there is no
other.  So the vertices of a mesh are the points of all rings, the exterior first
(`vertices_of_tessellateWith`), and that a ring has too few points or one that is not finite is said
of no rings but those (`isRingFault_of_tessellateWith`).
-/

namespace CityScene.Tessellation

variable {K : Type} [Scalar K]

/-- The failure is that of a ring on its own, whatever its shape. -/
def Failure.isRingFault : Failure K → Bool
  | tooFewPoints _ _ | nonFiniteCoordinate _ => true
  | _ => false

theorem ringFault?_eq_none_iff {points : List (Vec3 K)} {ring : Nat} :
    ringFault? points ring = none ↔
      (∀ p ∈ points, p.isFinite = true) ∧ 3 ≤ distinctCount points := by
  rw [ringFault?]
  by_cases hfinite : points.all Vec3.isFinite = true
  · rw [hfinite, Bool.not_true, if_neg Bool.false_ne_true, ← List.all_eq_true,
      and_iff_right hfinite]
    split
    · next hcount => exact iff_of_false nofun (Nat.not_le_of_lt hcount)
    · next hcount => exact iff_of_true rfl (Nat.le_of_not_lt hcount)
  · rw [if_pos (by simpa using hfinite)]
    exact iff_of_false nofun fun h => hfinite (List.all_eq_true.2 h.1)

theorem isRingFault_holeFault {exterior hole : List (Vec2 K)} {index : Nat} {tolerance : K}
    {failure : Failure K} (h : holeFault? exterior hole index tolerance = some failure) :
    failure.isRingFault = false := by
  rw [holeFault?] at h
  split at h
  · cases h; rfl
  · split at h
    · cases h; rfl
    · split at h
      · cases h; rfl
      · cases h

theorem isRingFault_overlapFault {holes : List (List (Vec2 K))} {tolerance : K}
    {failure : Failure K} (h : overlapFault? holes tolerance = some failure) :
    failure.isRingFault = false := by
  obtain ⟨a, -, h⟩ := List.exists_of_findSome?_eq_some h
  obtain ⟨b, -, h⟩ := List.exists_of_findSome?_eq_some h
  obtain ⟨-, rfl⟩ := Option.ite_some_none_eq_some.1 h
  rfl

theorem isRingFault_checkTopology {exterior : List (Vec2 K)} {holes : List (List (Vec2 K))}
    {tolerance : K} {failure : Failure K}
    (h : checkTopology exterior holes tolerance = .error failure) :
    failure.isRingFault = false := by
  rw [checkTopology] at h
  split at h
  · cases h; rfl
  · dsimp only at h
    split at h
    · next hfault =>
      cases h
      rcases Option.or_eq_some_iff.1 hfault with hfault | ⟨-, hfault⟩
      · obtain ⟨hole, -, hfault⟩ := List.exists_of_findSome?_eq_some hfault
        exact isRingFault_holeFault hfault
      · exact isRingFault_overlapFault hfault
    · cases h

/-! ### Every way in which tessellation ends -/

/-- The unit vector that a polygon faces. -/
def facing (exterior : List (Vec3 K)) : Vec3 K :=
  (newellNormal exterior).normalize

/-- The plane in which a polygon is triangulated. -/
def planeOf (exterior : List (Vec3 K)) : PlaneBasis K :=
  .ofNormal (exterior.headD 0) (facing exterior)

/-- The points of all rings in that plane. -/
def flattened (exterior : List (Vec3 K)) (holes : List (List (Vec3 K))) : List (Vec2 K) :=
  let plane := planeOf exterior
  plane.projectRing exterior ++ (holes.map plane.projectRing).flatten

/-- The areas of triangles taken together. -/
def coveredArea (points : List (Vec2 K)) (triangles : List Triangle) : K :=
  triangles.foldl (fun sum t => sum + Scalar.abs (signedAreaAt points t)) 0

/-- The area of the polygon in its plane. -/
def expectedArea (exterior : List (Vec3 K)) (holes : List (List (Vec3 K))) : K :=
  let plane := planeOf exterior
  areaBetween (plane.projectRing exterior) (holes.map plane.projectRing)

section Tessellate

variable {triangulate : List (Vec2 K) → List Nat → List Triangle} {exterior : List (Vec3 K)}
  {holes : List (List (Vec3 K))} {smooth : Bool}

/-- What tessellation comes to. -/
inductive Tessellates (triangulate : List (Vec2 K) → List Nat → List Triangle)
    (exterior : List (Vec3 K)) (holes : List (List (Vec3 K))) (smooth : Bool) :
    Except (Failure K) (Mesh K) → Prop
  /-- A ring is refused on its own. -/
  | ring {ring : List (Vec3 K)} {i : Nat} {fault : Failure K} (hring : ring ∈ exterior :: holes)
      (hfault : ringFault? ring i = some fault) :
      Tessellates triangulate exterior holes smooth (.error fault)
  | degenerate (h : (newellNormal exterior).norm ≤
        relativeEpsilon * ringScale exterior * ringScale exterior) :
      Tessellates triangulate exterior holes smooth (.error .degenerate)
  /-- The rings do not go together. -/
  | topology {fault : Failure K}
      (h : checkTopology ((planeOf exterior).projectRing exterior)
        (holes.map (planeOf exterior).projectRing) (relativeEpsilon * ringScale exterior) =
          .error fault) : Tessellates triangulate exterior holes smooth (.error fault)
  | empty (h : triangulate (flattened exterior holes) (holeStarts exterior.length holes) = []) :
      Tessellates triangulate exterior holes smooth (.error (.triangulationFailed .noTriangles))
  | area {found : List Triangle}
      (hfound : triangulate (flattened exterior holes) (holeStarts exterior.length holes) = found)
      (h : areaTolerance * Scalar.larger (Scalar.abs (expectedArea exterior holes))
          Scalar.minPositive <
        Scalar.abs (coveredArea (flattened exterior holes) found - expectedArea exterior holes)) :
      Tessellates triangulate exterior holes smooth (.error (.triangulationFailed
        (.area (coveredArea (flattened exterior holes) found) (expectedArea exterior holes))))
  | done {found : List Triangle}
      (hrings : ∀ ring ∈ exterior :: holes,
        (∀ p ∈ ring, p.isFinite = true) ∧ 3 ≤ distinctCount ring)
      (hnormal : ¬ (newellNormal exterior).norm ≤
        relativeEpsilon * ringScale exterior * ringScale exterior)
      (htopology : checkTopology ((planeOf exterior).projectRing exterior)
        (holes.map (planeOf exterior).projectRing) (relativeEpsilon * ringScale exterior) = .ok ())
      (hfound : triangulate (flattened exterior holes) (holeStarts exterior.length holes) = found)
      (hne : found ≠ [])
      (harea : ¬ areaTolerance * Scalar.larger (Scalar.abs (expectedArea exterior holes))
          Scalar.minPositive <
        Scalar.abs (coveredArea (flattened exterior holes) found - expectedArea exterior holes)) :
      Tessellates triangulate exterior holes smooth (.ok ⟨exterior ++ holes.flatten,
        found.map (orient (flattened exterior holes)),
        meshNormals smooth (facing exterior) (exterior ++ holes.flatten)
          (found.map (orient (flattened exterior holes)))⟩)

/-- Rings that are accepted on their own are taken from check to check. -/
theorem tessellateWith_eq (hrings : ((exterior :: holes).zipIdx.findSome? fun (ring, i) =>
      ringFault? ring i) = none) :
    tessellateWith triangulate exterior holes smooth =
      let points := flattened exterior holes
      let found := triangulate points (holeStarts exterior.length holes)
      let vertices := exterior ++ holes.flatten
      let area := coveredArea points found
      let expected := expectedArea exterior holes
      if (newellNormal exterior).norm ≤
          relativeEpsilon * ringScale exterior * ringScale exterior then .error .degenerate
      else
        (checkTopology ((planeOf exterior).projectRing exterior)
          (holes.map (planeOf exterior).projectRing) (relativeEpsilon * ringScale exterior)).bind
        fun _ =>
          if found.isEmpty then .error (.triangulationFailed .noTriangles)
          else if areaTolerance * Scalar.larger (Scalar.abs expected) Scalar.minPositive <
              Scalar.abs (area - expected) then
            .error (.triangulationFailed (.area area expected))
          else .ok ⟨vertices, found.map (orient points),
            meshNormals smooth (facing exterior) vertices (found.map (orient points))⟩ := by
  rw [tessellateWith, hrings]
  rfl

/-- What the option for smooth normals changes is the normals. -/
theorem tessellateWith_eq_map (triangulate : List (Vec2 K) → List Nat → List Triangle)
    (exterior : List (Vec3 K)) (holes : List (List (Vec3 K))) (smooth : Bool) :
    tessellateWith triangulate exterior holes smooth =
      (tessellateWith triangulate exterior holes false).map fun mesh => { mesh with
        normals := meshNormals smooth (facing exterior) mesh.vertices mesh.triangles } := by
  cases hfault : (exterior :: holes).zipIdx.findSome? fun (ring, i) => ringFault? ring i with
  | some fault =>
    rw [tessellateWith, tessellateWith, hfault]
    rfl
  | none =>
    rw [tessellateWith_eq hfault, tessellateWith_eq hfault]
    dsimp only
    split
    · rfl
    · cases checkTopology ((planeOf exterior).projectRing exterior)
        (holes.map (planeOf exterior).projectRing) (relativeEpsilon * ringScale exterior) with
      | error fault => rfl
      | ok _ =>
        rw [Except.bind, Except.bind]
        split
        · rfl
        · split <;> rfl

theorem tessellates (triangulate : List (Vec2 K) → List Nat → List Triangle)
    (exterior : List (Vec3 K)) (holes : List (List (Vec3 K))) (smooth : Bool) :
    Tessellates triangulate exterior holes smooth
      (tessellateWith triangulate exterior holes smooth) := by
  cases hfault : (exterior :: holes).zipIdx.findSome? fun (ring, i) => ringFault? ring i with
  | some fault =>
    obtain ⟨⟨ring, i⟩, hmem, hring⟩ := List.exists_of_findSome?_eq_some hfault
    rw [tessellateWith, hfault]
    exact .ring (List.fst_mem_of_mem_zipIdx hmem) hring
  | none =>
    have hrings : ∀ ring ∈ exterior :: holes,
        (∀ p ∈ ring, p.isFinite = true) ∧ 3 ≤ distinctCount ring := fun ring hring => by
      obtain ⟨i, hi⟩ := List.getElem?_of_mem hring
      exact ringFault?_eq_none_iff.1
        (List.findSome?_eq_none_iff.1 hfault (ring, i) (List.mk_mem_zipIdx_iff_getElem?.2 hi))
    rw [tessellateWith_eq hfault]
    dsimp only
    split
    · next hnormal => exact .degenerate hnormal
    · next hnormal =>
      cases htopology : checkTopology ((planeOf exterior).projectRing exterior)
          (holes.map (planeOf exterior).projectRing) (relativeEpsilon * ringScale exterior) with
      | error fault => exact .topology htopology
      | ok _ =>
        rw [Except.bind]
        split
        · next hempty => exact .empty (List.isEmpty_iff.1 hempty)
        · next hempty =>
          split
          · next harea => exact .area rfl harea
          · next harea =>
            exact .done hrings hnormal htopology rfl (mt List.isEmpty_iff.2 hempty) harea

/-- **The vertices are the points of the rings**, the exterior first. -/
theorem vertices_of_tessellateWith {mesh : Mesh K}
    (h : tessellateWith triangulate exterior holes smooth = .ok mesh) :
    mesh.vertices = exterior ++ holes.flatten := by
  have hcases := tessellates triangulate exterior holes smooth
  rw [h] at hcases
  cases hcases
  rfl

/-- **Rings that are finite and have three different points are not refused on their own.** -/
theorem isRingFault_of_tessellateWith {failure : Failure K}
    (h : tessellateWith triangulate exterior holes smooth = .error failure)
    (hrings : ∀ ring ∈ exterior :: holes,
      (∀ p ∈ ring, p.isFinite = true) ∧ 3 ≤ distinctCount ring) : failure.isRingFault = false := by
  have hcases := tessellates triangulate exterior holes smooth
  rw [h] at hcases
  cases hcases with
  | ring hring hfault =>
    rw [ringFault?_eq_none_iff.2 (hrings _ hring)] at hfault
    cases hfault
  | topology h => exact isRingFault_checkTopology h
  | degenerate | empty | area => rfl

end Tessellate

end CityScene.Tessellation
