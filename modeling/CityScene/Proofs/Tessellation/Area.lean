import CityScene.Proofs.Tessellation.Flattening

/-!
# Winding and area of meshes

The triangles of a mesh are checked where they were found, in the plane of the polygon.  What the
checks say of them there, they say of them in space as well, since the signed area of a flattened
triangle is what its normal is along the normal of the polygon (`two_mul_signedAreaAt`).  So turning
a triangle counter-clockwise in the plane turns it to face where the polygon faces, whether the
polygon is plane or not (`triangleNormal_dot_nonneg`).

If all rings lie in one plane, their normals and those of the triangles stand straight on it
(`cross_facing`), so nothing loses area when it is flattened: rings keep theirs
(`abs_ringSignedArea`), triangles keep theirs (`triangleArea_eq`), and what is said of the area in
the plane holds of the mesh itself (`expectedArea_eq`, `meshArea_map_orient`).
-/

namespace CityScene

/-! ### Corners of triangles -/

namespace Triangle

variable {α β : Type}

/-- All three indices are below a number of points. -/
def InRange (t : Triangle) (count : Nat) : Prop :=
  t.a < count ∧ t.b < count ∧ t.c < count

theorem InRange.flip {t : Triangle} {count : Nat} (h : t.InRange count) : t.flip.InRange count :=
  ⟨h.1, h.2.2, h.2.1⟩

/-- A triangle that is in range has corners among the points. -/
theorem InRange.exists_corners {t : Triangle} {points : List α} (h : t.InRange points.length) :
    ∃ a ∈ points, ∃ b ∈ points, ∃ c ∈ points, t.corners? points = some (a, b, c) := by
  refine ⟨_, List.getElem_mem h.1, _, List.getElem_mem h.2.1, _, List.getElem_mem h.2.2, ?_⟩
  rw [corners?, List.getElem?_eq_getElem h.1, List.getElem?_eq_getElem h.2.1,
    List.getElem?_eq_getElem h.2.2]

theorem corners?_map (f : α → β) (t : Triangle) {points : List α} {a b c : α}
    (h : t.corners? points = some (a, b, c)) :
    t.corners? (points.map f) = some (f a, f b, f c) := by
  rw [corners?] at h ⊢
  split at h
  · next ha hb hc =>
    cases h
    rw [List.getElem?_map, List.getElem?_map, List.getElem?_map, ha, hb, hc]
    rfl
  · cases h

theorem mem_indices {i : Nat} {triangles : List Triangle} :
    i ∈ indices triangles ↔ ∃ t ∈ triangles, i = t.a ∨ i = t.b ∨ i = t.c := by
  simp [indices]

theorem length_indices (triangles : List Triangle) :
    (indices triangles).length = 3 * triangles.length := by
  simp [indices, List.length_flatMap, mul_comm]

end Triangle

/-! ### Coplanar points -/

/-- Some plane holds all the points. -/
def Coplanar (points : List (Vec3 ℝ)) : Prop :=
  ∃ o m : Vec3 ℝ, m ≠ 0 ∧ ∀ p ∈ points, (p - o).dot m = 0

/-- The normal of a ring in a plane stands straight on the plane. -/
theorem newellNormal_cross_eq_zero {points : List (Vec3 ℝ)} {o m : Vec3 ℝ}
    (h : ∀ p ∈ points, (p - o).dot m = 0) : (newellNormal points).cross m = 0 := by
  refine Vec3.eq_zero_of_forall_dot fun w => ?_
  rw [Vec3.cross_dot, newellNormal_dot points o]
  refine List.sum_eq_zero fun x hx => ?_
  obtain ⟨e, he, rfl⟩ := List.mem_map.1 hx
  obtain ⟨hfirst, hsecond⟩ := mem_of_mem_ringEdges he
  rw [Vec3.cross_dot_cross, h _ hfirst, h _ hsecond]
  ring

/-- So does the normal of a triangle. -/
theorem triangleNormal_cross_eq_zero {o m a b c : Vec3 ℝ} (ha : (a - o).dot m = 0)
    (hb : (b - o).dot m = 0) (hc : (c - o).dot m = 0) : (triangleNormal a b c).cross m = 0 := by
  rw [Vec3.sub_dot] at ha hb hc
  refine Vec3.cross_cross_eq_zero ?_ ?_
  · rw [Vec3.sub_dot]
    linarith
  · rw [Vec3.sub_dot]
    linarith

namespace Tessellation

/-! ### Signed areas -/

/-- A triangle that is turned around has the opposite area. -/
theorem signedAreaAt_flip (points : List (Vec2 ℝ)) (t : Triangle) :
    signedAreaAt points t.flip = -signedAreaAt points t := by
  rw [signedAreaAt, signedAreaAt, Triangle.corners?, Triangle.corners?, Triangle.flip]
  cases points[t.a]? <;> cases points[t.b]? <;> cases points[t.c]? <;> try exact neg_zero.symm
  simp only [triangleSignedArea]
  ring

theorem signedAreaAt_orient (points : List (Vec2 ℝ)) (t : Triangle) :
    signedAreaAt points (orient points t) = |signedAreaAt points t| := by
  rw [orient]
  split
  · next h => rw [signedAreaAt_flip, abs_of_neg h]
  · next h => rw [abs_of_nonneg (not_lt.1 h)]

/-- Turning a triangle swaps its last two corners at most. -/
theorem orient_cases (points : List (Vec2 ℝ)) (t : Triangle) :
    orient points t = t ∨ orient points t = t.flip := by
  rw [orient]
  split
  · exact .inr rfl
  · exact .inl rfl

theorem inRange_orient {points : List (Vec2 ℝ)} {t : Triangle} {count : Nat}
    (h : t.InRange count) : (orient points t).InRange count := by
  rcases orient_cases points t with ht | ht
  · rw [ht]
    exact h
  · rw [ht]
    exact h.flip

variable {exterior : List (Vec3 ℝ)} {holes : List (List (Vec3 ℝ))}

/-- The points in the plane are those in space, flattened one by one. -/
theorem flattened_eq (exterior : List (Vec3 ℝ)) (holes : List (List (Vec3 ℝ))) :
    flattened exterior holes =
      (exterior ++ holes.flatten).map (planeOf exterior).project := by
  rw [List.map_append, List.map_flatten]
  rfl

theorem length_flattened (exterior : List (Vec3 ℝ)) (holes : List (List (Vec3 ℝ))) :
    (flattened exterior holes).length = (exterior ++ holes.flatten).length := by
  rw [flattened_eq, List.length_map]

/-- What stands straight on the plane of a polygon is parallel to the polygon's normal. -/
theorem cross_facing {points : List (Vec3 ℝ)} {o m p : Vec3 ℝ} (hm : m ≠ 0)
    (hplane : ∀ q ∈ points, (q - o).dot m = 0) (hp : p.cross m = 0) :
    p.cross (facing points) = 0 := by
  have hpos : 0 < m.dot m :=
    m.dot_self_nonneg.lt_of_ne fun hzero => hm (Vec3.eq_zero_of_dot_self hzero.symm)
  exact Vec3.cross_normalize_eq_zero
    (Vec3.cross_eq_zero_of_parallel hpos hp (newellNormal_cross_eq_zero hplane))

section Accepted

variable (h : ¬ (newellNormal exterior).norm ≤
    relativeEpsilon * ringScale exterior * ringScale exterior)

include h

/-- **The signed area of a flattened triangle is what its normal is along that of the polygon.** -/
theorem two_mul_signedAreaAt {t : Triangle} {a b c : Vec3 ℝ}
    (ht : t.corners? (exterior ++ holes.flatten) = some (a, b, c)) :
    2 * signedAreaAt (flattened exterior holes) t =
      (triangleNormal a b c).dot (facing exterior) := by
  have hcorners := t.corners?_map (planeOf exterior).project ht
  rw [← flattened_eq] at hcorners
  rw [signedAreaAt, hcorners, ← planeOf_u_cross_v h]
  exact (planeOf exterior).two_mul_triangleSignedArea_project a b c

/-- **A triangle that is turned counter-clockwise faces where the polygon faces.** -/
theorem triangleNormal_dot_facing_nonneg {t : Triangle} {a b c : Vec3 ℝ}
    (ht : (orient (flattened exterior holes) t).corners? (exterior ++ holes.flatten) =
      some (a, b, c)) : 0 ≤ (triangleNormal a b c).dot (facing exterior) := by
  rw [← two_mul_signedAreaAt h ht, signedAreaAt_orient]
  exact mul_nonneg zero_le_two (abs_nonneg _)

theorem triangleNormal_dot_nonneg {t : Triangle} {a b c : Vec3 ℝ}
    (ht : (orient (flattened exterior holes) t).corners? (exterior ++ holes.flatten) =
      some (a, b, c)) : 0 ≤ (triangleNormal a b c).dot (newellNormal exterior) := by
  have hfacing := triangleNormal_dot_facing_nonneg h ht
  rw [facing, Vec3.dot_comm, Vec3.normalize_dot, Vec3.dot_comm] at hfacing
  rwa [le_div_iff₀ (newellNormal_norm_pos h), zero_mul] at hfacing

/-! ### Polygons in a plane -/

section Plane

variable {o m : Vec3 ℝ} (hm : m ≠ 0)
  (hplane : ∀ p ∈ exterior ++ holes.flatten, (p - o).dot m = 0)

include hm hplane

/-- Rings keep their area when they are flattened. -/
theorem abs_ringSignedArea {ring : List (Vec3 ℝ)} (hring : ring ⊆ exterior ++ holes.flatten) :
    |ringSignedArea ((planeOf exterior).projectRing ring)| = ringArea ring := by
  have hparallel := cross_facing hm (fun p hp => hplane p (List.mem_append_left _ hp))
    (newellNormal_cross_eq_zero fun p hp => hplane p (hring hp))
  have htwice := (planeOf exterior).two_mul_ringSignedArea_projectRing ring
  rw [planeOf_u_cross_v h] at htwice
  have habs := congrArg abs htwice
  rw [Vec3.abs_dot_of_cross_eq_zero (facing_dot_facing h) hparallel, abs_mul, abs_two] at habs
  rw [ringArea, ← habs]
  ring

/-- Triangles keep their area when they are flattened. -/
theorem triangleArea_eq {t : Triangle} {a b c : Vec3 ℝ}
    (ht : t.corners? (exterior ++ holes.flatten) = some (a, b, c))
    (ha : a ∈ exterior ++ holes.flatten) (hb : b ∈ exterior ++ holes.flatten)
    (hc : c ∈ exterior ++ holes.flatten) :
    triangleArea a b c = |signedAreaAt (flattened exterior holes) t| := by
  have hparallel := cross_facing hm (fun p hp => hplane p (List.mem_append_left _ hp))
    (triangleNormal_cross_eq_zero (hplane a ha) (hplane b hb) (hplane c hc))
  have habs := congrArg abs (two_mul_signedAreaAt h ht)
  rw [Vec3.abs_dot_of_cross_eq_zero (facing_dot_facing h) hparallel, abs_mul, abs_two] at habs
  rw [triangleArea, ← habs]
  ring

/-- The area that the triangles are checked against is the area between the rings. -/
theorem expectedArea_eq :
    expectedArea exterior holes = ringArea exterior - (holes.map ringArea).sum := by
  have hholes : ∀ hole ∈ holes, |ringSignedArea ((planeOf exterior).projectRing hole)| =
      ringArea hole := fun hole hhole =>
    abs_ringSignedArea h hm hplane fun p hp =>
      List.mem_append_right _ (List.mem_flatten.2 ⟨hole, hhole, hp⟩)
  rw [expectedArea, areaBetween, foldl_add_eq_add_sum, zero_add, List.map_map]
  dsimp only [Scalar.abs_real]
  rw [abs_ringSignedArea h hm hplane (List.subset_append_left _ _)]
  exact congrArg _ (congrArg List.sum (List.map_congr_left hholes))

/-- A mesh of turned triangles has the area that its triangles have in the plane. -/
theorem meshArea_map_orient {found : List Triangle}
    (hfound : ∀ t ∈ found, t.InRange (exterior ++ holes.flatten).length) :
    meshArea (exterior ++ holes.flatten) (found.map (orient (flattened exterior holes))) =
      coveredArea (flattened exterior holes) found := by
  rw [meshArea, coveredArea, foldl_add_eq_add_sum, foldl_add_eq_add_sum]
  congr 1
  induction found with
  | nil => rfl
  | cons t found ih =>
    obtain ⟨ht, hrest⟩ := List.forall_mem_cons.1 hfound
    have hin : (orient (flattened exterior holes) t).InRange (exterior ++ holes.flatten).length :=
      inRange_orient ht
    obtain ⟨a, ha, b, hb, c, hc, hcorners⟩ := hin.exists_corners
    have harea := triangleArea_eq h hm hplane hcorners ha hb hc
    rw [signedAreaAt_orient, abs_abs] at harea
    simp only [List.map_cons, List.filterMap_cons, hcorners, List.sum_cons, ih hrest]
    exact congrArg (· + _) harea

end Plane

end Accepted

/-! ### Meshes -/

/-- Smooth normals come one for each vertex. -/
theorem meshNormals_smooth (normal : Vec3 ℝ) (vertices : List (Vec3 ℝ))
    (triangles : List Triangle) :
    ∃ normals, meshNormals true normal vertices triangles = .perVertex normals ∧
      normals.length = vertices.length :=
  ⟨_, rfl, by rw [List.length_map, vertexNormals, List.length_map, List.length_range]⟩

/-- **What a mesh promises**, if the triangulation gives triangles over the points that it gets. -/
theorem mesh_of_tessellateWith {triangulate : List (Vec2 ℝ) → List Nat → List Triangle}
    (htriangulate : ∀ points starts, ∀ t ∈ triangulate points starts, t.InRange points.length)
    {exterior : List (Vec3 ℝ)} {holes : List (List (Vec3 ℝ))} {smooth : Bool} {mesh : Mesh ℝ}
    (h : tessellateWith triangulate exterior holes smooth = .ok mesh) :
    mesh.vertices = exterior ++ holes.flatten ∧
    (Triangle.indices mesh.triangles ≠ [] ∧ 3 ∣ (Triangle.indices mesh.triangles).length ∧
      ∀ i ∈ Triangle.indices mesh.triangles, i < mesh.vertices.length) ∧
    List.Forall₂ (fun found t => t = found ∨ t = found.flip)
      (triangulate (flattened exterior holes) (holeStarts exterior.length holes))
      mesh.triangles ∧
    (∀ t ∈ mesh.triangles, ∃ a b c, t.corners? mesh.vertices = some (a, b, c) ∧
      0 ≤ ((b - a).cross (c - a)).dot (newellNormal exterior)) ∧
    (smooth = true → ∃ normals, mesh.normals = .perVertex normals ∧
      normals.length = mesh.vertices.length) ∧
    (Coplanar (exterior ++ holes.flatten) →
      let area := ringArea exterior - (holes.map ringArea).sum
      |mesh.area - area| ≤ 1e-6 * max |area| Scalar.minPositive) := by
  have hcases := tessellates triangulate exterior holes smooth
  rw [h] at hcases
  cases hcases with
  | @done found hrings hnormal htopology hfound hne harea =>
    have hin : ∀ t ∈ found, t.InRange (exterior ++ holes.flatten).length := fun t ht => by
      rw [← length_flattened]
      exact htriangulate _ _ t (hfound ▸ ht)
    have hturned : ∀ t ∈ found.map (orient (flattened exterior holes)),
        t.InRange (exterior ++ holes.flatten).length := fun t ht => by
      obtain ⟨u, hu, rfl⟩ := List.mem_map.1 ht
      exact inRange_orient (hin u hu)
    dsimp only
    refine ⟨rfl, ⟨?_, ?_, fun i hi => ?_⟩, ?_, fun t ht => ?_, ?_, fun hplane => ?_⟩
    · intro hempty
      have hlength := congrArg List.length hempty
      rw [Triangle.length_indices, List.length_map, List.length_nil] at hlength
      exact hne (List.length_eq_zero_iff.1 (by omega))
    · rw [Triangle.length_indices]
      exact Nat.dvd_mul_right 3 _
    · obtain ⟨t, ht, hi⟩ := Triangle.mem_indices.1 hi
      obtain ⟨ha, hb, hc⟩ := hturned t ht
      rcases hi with rfl | rfl | rfl
      · exact ha
      · exact hb
      · exact hc
    · rw [hfound, List.forall₂_map_right_iff]
      exact List.forall₂_same.2 fun t _ => orient_cases _ t
    · obtain ⟨a, -, b, -, c, -, hcorners⟩ := (hturned t ht).exists_corners
      obtain ⟨u, -, rfl⟩ := List.mem_map.1 ht
      exact ⟨a, b, c, hcorners, triangleNormal_dot_nonneg hnormal hcorners⟩
    · rintro rfl
      exact meshNormals_smooth _ _ _
    · obtain ⟨o, m, hm, hplane⟩ := hplane
      rw [expectedArea_eq hnormal hm hplane] at harea
      rw [Mesh.area, meshArea_map_orient hnormal hm hplane hin]
      have hchecked := not_lt.1 harea
      rw [Scalar.larger_real] at hchecked
      exact hchecked

/-! ### The mesh of a triangle -/

/-- A polygon of three points is one ear. -/
def cutTriangle (points : List (Vec2 ℝ)) (_ : List Nat) : List Triangle :=
  if points.length = 3 then [⟨1, 2, 0⟩] else []

theorem inRange_cutTriangle (points : List (Vec2 ℝ)) (starts : List Nat) :
    ∀ t ∈ cutTriangle points starts, t.InRange points.length := by
  intro t ht
  rw [cutTriangle] at ht
  split at ht
  · next hthree =>
    obtain rfl := List.mem_singleton.1 ht
    rw [hthree]
    exact ⟨by decide, by decide, by decide⟩
  · cases ht

/-- The triangle lies level, so it is seen from above. -/
theorem planeOf_levelTriangle :
    planeOf levelTriangle = ⟨⟨0, 0, 0⟩, ⟨0, 0, 1⟩, ⟨0, 1, 0⟩, ⟨-1, 0, 0⟩⟩ := by
  have hfacing : facing levelTriangle = ⟨0, 0, 1⟩ := by
    rw [facing, Vec3.normalize, norm_newellNormal_levelTriangle, newellNormal_levelTriangle]
    refine Vec3.ext_real ?_ ?_ ?_
    · exact zero_div 12
    · exact zero_div 12
    · exact div_self (by norm_num)
  have hcross : (⟨0, 0, 1⟩ : Vec3 ℝ).cross (PlaneBasis.referenceAxis ⟨0, 0, 1⟩) = ⟨0, 1, 0⟩ := by
    simp [PlaneBasis.referenceAxis, Vec3.cross]
  have hcross' : (⟨0, 0, 1⟩ : Vec3 ℝ).cross ⟨0, 1, 0⟩ = ⟨-1, 0, 0⟩ := by
    simp [Vec3.cross]
  have hu : (⟨0, 1, 0⟩ : Vec3 ℝ).normalize = ⟨0, 1, 0⟩ :=
    Vec3.normalize_of_dot_self (by simp [Vec3.dot])
  have hv : (⟨-1, 0, 0⟩ : Vec3 ℝ).normalize = ⟨-1, 0, 0⟩ :=
    Vec3.normalize_of_dot_self (by simp [Vec3.dot])
  rw [planeOf, PlaneBasis.ofNormal, hfacing, hcross, hu, hcross', hv]
  rfl

theorem projectRing_levelTriangle :
    (planeOf levelTriangle).projectRing levelTriangle = [⟨0, 0⟩, ⟨0, -4⟩, ⟨3, -4⟩] := by
  rw [planeOf_levelTriangle, levelTriangle]
  simp [PlaneBasis.projectRing, PlaneBasis.project, Vec3.dot]

theorem flattened_levelTriangle : flattened levelTriangle [] = [⟨0, 0⟩, ⟨0, -4⟩, ⟨3, -4⟩] := by
  rw [← projectRing_levelTriangle]
  exact List.append_nil _

/-- The ear covers the triangle. -/
theorem coveredArea_levelTriangle :
    coveredArea (flattened levelTriangle []) [⟨1, 2, 0⟩] = expectedArea levelTriangle [] := by
  have hexpected : expectedArea levelTriangle [] = 6 := by
    rw [expectedArea, areaBetween, ringSignedArea_exterior accepted_levelTriangle, ringArea,
      norm_newellNormal_levelTriangle]
    norm_num
  rw [flattened_levelTriangle, hexpected]
  show (0 : ℝ) + |triangleSignedArea ⟨0, -4⟩ ⟨3, -4⟩ ⟨0, 0⟩| = 6
  rw [triangleSignedArea]
  norm_num

theorem mesh_levelTriangle :
    ∃ mesh, tessellateWith cutTriangle levelTriangle [] true = .ok mesh ∧
      mesh.vertices = levelTriangle ∧ Triangle.indices mesh.triangles ≠ [] ∧
      (∃ normals, mesh.normals = .perVertex normals ∧ normals.length = 3) ∧
      |mesh.area - ringArea levelTriangle| ≤
        1e-6 * max |ringArea levelTriangle| Scalar.minPositive := by
  have hring : ringFault? levelTriangle 0 = none := by
    rw [ringFault?_eq_none_iff]
    constructor
    · exact fun p _ => rfl
    · simp [levelTriangle, distinctCount, Vec3.same, Scalar.same]
  have htopology : checkTopology ((planeOf levelTriangle).projectRing levelTriangle) []
      (relativeEpsilon * ringScale levelTriangle) = .ok () := by
    have hbeq (p q : Vec2 ℝ) : (p == q) = (decide (p.x = q.x) && decide (p.y = q.y)) := rfl
    have hdedup : dedupRing [⟨0, 0⟩, ⟨0, -4⟩, (⟨3, -4⟩ : Vec2 ℝ)] = [⟨0, 0⟩, ⟨0, -4⟩, ⟨3, -4⟩] := by
      simp [dedupRing, dropRepeats, dropRepeats.go, dropClosing, hbeq]
    rw [projectRing_levelTriangle, checkTopology, hdedup]
    rfl
  have hfound : cutTriangle (flattened levelTriangle [])
      (holeStarts levelTriangle.length ([] : List (List (Vec3 ℝ)))) = [⟨1, 2, 0⟩] := by
    rw [flattened_levelTriangle]
    rfl
  have harea : ¬ areaTolerance * Scalar.larger (Scalar.abs (expectedArea levelTriangle []))
      Scalar.minPositive < Scalar.abs (expectedArea levelTriangle [] -
        expectedArea levelTriangle []) := by
    have htolerance : (0 : ℝ) ≤ areaTolerance := by
      show (0 : ℝ) ≤ 1e-6
      norm_num
    rw [sub_self, Scalar.abs_real 0, abs_zero, Scalar.larger_real, not_lt]
    exact mul_nonneg htolerance (le_max_of_le_left (abs_nonneg _))
  have hrun : ∃ mesh, tessellateWith cutTriangle levelTriangle [] true = .ok mesh := by
    rw [tessellateWith_eq]
    · dsimp only
      rw [if_neg accepted_levelTriangle, List.map_nil, htopology, hfound,
        coveredArea_levelTriangle, Except.bind, List.isEmpty_cons, if_neg Bool.false_ne_true,
        if_neg harea]
      exact ⟨_, rfl⟩
    · rw [List.zipIdx_singleton, List.findSome?_singleton]
      exact hring
  obtain ⟨mesh, hmesh⟩ := hrun
  have hcoplanar : Coplanar (levelTriangle ++ [].flatten) := by
    refine ⟨⟨0, 0, 0⟩, ⟨0, 0, 1⟩, fun h => one_ne_zero (congrArg Vec3.z h), ?_⟩
    simp [levelTriangle, Vec3.dot]
  obtain ⟨hvertices, ⟨hne, -⟩, -, -, hsmooth, hmeshArea⟩ :=
    mesh_of_tessellateWith inRange_cutTriangle hmesh
  have hclose := hmeshArea hcoplanar
  rw [List.map_nil, List.sum_nil, sub_zero] at hclose
  rw [List.flatten_nil, List.append_nil] at hvertices
  rw [hvertices] at hsmooth
  exact ⟨mesh, hmesh, hvertices, hne, hsmooth rfl, hclose⟩

end Tessellation

end CityScene
