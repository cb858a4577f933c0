import CityScene.Proofs.Tessellation.Area
import CityScene.Proofs.Tessellation.Repetitions

/-!
# Smooth normals of plane polygons

If all rings lie in one plane, a triangle that was turned counter-clockwise has a normal that is a
multiple of the polygon's own, by a factor that is not negative (`along_triangleNormal`).  Sums of
such multiples are such multiples (`Vec3.Along.add`), so what is gathered at a vertex is one,
however many triangles touch the vertex and whether they have an area or not (`along_gathered`).  A
multiple by a positive factor has the polygon's normal as its direction.  By zero it has none, and
then the polygon's normal takes its place (`Vec3.Along.normal_eq`).

So smooth shading shows no seams where there are none: the smooth mesh is the plain one with the
same normal at each vertex (`smooth_of_coplanar`).
-/

namespace CityScene

/-! ### Multiples of a unit vector -/

namespace Vec3

variable {p q r : Vec3 ℝ}

/-- The vector points where `r` points, or has no length. -/
def Along (r p : Vec3 ℝ) : Prop :=
  ∃ k : ℝ, 0 ≤ k ∧ p = r.scale k

theorem Along.zero (r : Vec3 ℝ) : Along r 0 := by
  refine ⟨0, le_rfl, ?_⟩
  rw [scale]
  exact ext_real (mul_zero _).symm (mul_zero _).symm (mul_zero _).symm

theorem Along.add (hp : Along r p) (hq : Along r q) : Along r (p + q) := by
  obtain ⟨j, hj, rfl⟩ := hp
  obtain ⟨k, hk, rfl⟩ := hq
  refine ⟨j + k, add_nonneg hj hk, ?_⟩
  rw [scale, scale, scale]
  exact ext_real (mul_add _ _ _).symm (mul_add _ _ _).symm (mul_add _ _ _).symm

/-- A vector parallel to a unit vector is the multiple of it that its product with it says. -/
theorem along_of_cross_eq_zero (hr : r.dot r = 1) (h : p.cross r = 0) (hpos : 0 ≤ p.dot r) :
    Along r p := by
  have hscaled := scale_of_cross_eq_zero h
  rw [hr, scale] at hscaled
  refine ⟨p.dot r, hpos, ?_⟩
  rw [← hscaled]
  exact ext_real (mul_one _).symm (mul_one _).symm (mul_one _).symm

theorem norm_scale (hr : r.dot r = 1) {k : ℝ} (hk : 0 ≤ k) : (r.scale k).norm = k := by
  have hsquare : (r.scale k).dot (r.scale k) = k * k * r.dot r := by
    simp only [scale, dot]
    ring
  rw [norm_eq, hsquare, hr, mul_one, Real.sqrt_mul_self hk]

/-- **What stands for a multiple of a unit vector is that vector**, if vectors without length give
way to it. -/
theorem Along.normal_eq (hr : r.dot r = 1) (h : Along r p) :
    (if p.normalizeOrSelf == 0 then r else p.normalizeOrSelf) = r := by
  obtain ⟨k, hk, rfl⟩ := h
  rcases hk.eq_or_lt with rfl | hpos
  · have hzero : r.scale 0 = 0 := by
      rw [scale]
      exact ext_real (mul_zero _) (mul_zero _) (mul_zero _)
    have hself : (r.scale 0).normalizeOrSelf = 0 := by
      rw [normalizeOrSelf, norm_scale hr le_rfl, if_neg (lt_irrefl _), hzero]
    rw [hself, if_pos]
    simp only [BEq.beq, zero_x, zero_y, zero_z, decide_true, Bool.and_self]
  · have hunit : (r.scale k).normalizeOrSelf = r := by
      rw [normalizeOrSelf, norm_scale hr hk, if_pos hpos, shrink, scale]
      exact ext_real (mul_div_cancel_right₀ _ hpos.ne') (mul_div_cancel_right₀ _ hpos.ne')
        (mul_div_cancel_right₀ _ hpos.ne')
    rw [hunit, ite_self]

end Vec3

/-! ### What is gathered at a vertex -/

theorem Triangle.mem_of_corners? {α : Type} {t : Triangle} {points : List α} {a b c : α}
    (h : t.corners? points = some (a, b, c)) : a ∈ points ∧ b ∈ points ∧ c ∈ points := by
  rw [corners?] at h
  split at h
  · next ha hb hc =>
    cases h
    exact ⟨List.mem_of_getElem? ha, List.mem_of_getElem? hb, List.mem_of_getElem? hc⟩
  · cases h

section Gathered

variable {r : Vec3 ℝ} {vertices : List (Vec3 ℝ)}

theorem along_addCornerNormals {t : Triangle} {sum : Vec3 ℝ} (vertex : Nat)
    (ht : ∀ a b c, t.corners? vertices = some (a, b, c) → r.Along (triangleNormal a b c))
    (hsum : r.Along sum) : r.Along (addCornerNormals vertices vertex sum t) := by
  rw [addCornerNormals]
  split
  · exact hsum
  · next a b c hcorners =>
    have hnormal := ht a b c hcorners
    dsimp only
    split
    · -- the normal is added once for each corner at the vertex
      generalize t.cornersAt vertex = corners
      induction corners generalizing sum with
      | zero => exact hsum
      | succ corners ih =>
        rw [List.replicate_succ, List.foldl_cons]
        exact ih (hsum.add hnormal)
    · exact hsum

/-- **All that is gathered at a vertex points the same way** if all triangles face that way. -/
theorem along_gathered {triangles : List Triangle}
    (htriangles : ∀ t ∈ triangles, ∀ a b c, t.corners? vertices = some (a, b, c) →
      r.Along (triangleNormal a b c)) (vertex : Nat) {sum : Vec3 ℝ} (hsum : r.Along sum) :
    r.Along (triangles.foldl (addCornerNormals vertices vertex) sum) := by
  induction triangles generalizing sum with
  | nil => exact hsum
  | cons t rest ih =>
    obtain ⟨ht, hrest⟩ := List.forall_mem_cons.1 htriangles
    rw [List.foldl_cons]
    exact ih hrest (along_addCornerNormals vertex ht hsum)

end Gathered

namespace Tessellation

theorem meshNormals_of_along {r : Vec3 ℝ} {vertices : List (Vec3 ℝ)} {triangles : List Triangle}
    (hr : r.dot r = 1)
    (htriangles : ∀ t ∈ triangles, ∀ a b c, t.corners? vertices = some (a, b, c) →
      r.Along (triangleNormal a b c)) :
    meshNormals true r vertices triangles = .perVertex (List.replicate vertices.length r) := by
  rw [meshNormals, if_pos rfl, vertexNormals, List.map_map]
  congr 1
  refine List.eq_replicate_iff.2 ⟨by rw [List.length_map, List.length_range], fun n hn => ?_⟩
  obtain ⟨vertex, -, rfl⟩ := List.mem_map.1 hn
  exact (along_gathered htriangles vertex (Vec3.Along.zero r)).normal_eq hr

variable {exterior : List (Vec3 ℝ)} {holes : List (List (Vec3 ℝ))}

/-- **A triangle of a plane polygon that is turned counter-clockwise has the polygon's normal**, or
no area. -/
theorem along_triangleNormal
    (h : ¬ (newellNormal exterior).norm ≤
      relativeEpsilon * ringScale exterior * ringScale exterior)
    (hplane : Coplanar (exterior ++ holes.flatten)) {t : Triangle} {a b c : Vec3 ℝ}
    (ht : (orient (flattened exterior holes) t).corners? (exterior ++ holes.flatten) =
      some (a, b, c)) : (facing exterior).Along (triangleNormal a b c) := by
  obtain ⟨o, m, hm, hplane⟩ := hplane
  obtain ⟨ha, hb, hc⟩ := Triangle.mem_of_corners? ht
  have hstraight : (triangleNormal a b c).cross m = 0 :=
    triangleNormal_cross_eq_zero (hplane a ha) (hplane b hb) (hplane c hc)
  have hparallel : (triangleNormal a b c).cross (facing exterior) = 0 :=
    cross_facing hm (fun p hp => hplane p (List.mem_append_left _ hp)) hstraight
  exact Vec3.along_of_cross_eq_zero (facing_dot_facing h) hparallel
    (triangleNormal_dot_facing_nonneg h ht)

/-- **Smooth normals of a plane polygon are its plain normal.**  If all rings lie in one plane,
smooth normals are refused for the same reasons as a plain one.  Where the polygon has a mesh, it
has the same vertices and the same triangles with either, and each vertex has the plain normal,
whether triangles touch it or not. -/
theorem smooth_of_coplanar (triangulate : List (Vec2 ℝ) → List Nat → List Triangle)
    {exterior : List (Vec3 ℝ)} {holes : List (List (Vec3 ℝ))}
    (hplane : Coplanar (exterior ++ holes.flatten)) :
    (∀ failure, tessellateWith triangulate exterior holes true = .error failure ↔
      tessellateWith triangulate exterior holes false = .error failure) ∧
    ∀ plain, tessellateWith triangulate exterior holes false = .ok plain →
      ∃ n : Vec3 ℝ, n.norm = 1 ∧ plain.normals = .uniform n ∧
        tessellateWith triangulate exterior holes true =
          .ok { plain with normals := .perVertex (List.replicate plain.vertices.length n) } := by
  have hsmooth := tessellateWith_eq_map triangulate exterior holes true
  refine ⟨fun failure => ?_, fun plain hplain => ?_⟩
  · rw [hsmooth]
    cases tessellateWith triangulate exterior holes false with
    | error other => rfl
    | ok plain => exact ⟨nofun, nofun⟩
  · have hcases := tessellates triangulate exterior holes false
    rw [hplain] at hsmooth hcases
    cases hcases with
    | @done found _ hnormal _ _ _ _ =>
      have hturned : ∀ t ∈ found.map (orient (flattened exterior holes)), ∀ a b c,
          t.corners? (exterior ++ holes.flatten) = some (a, b, c) →
            (facing exterior).Along (triangleNormal a b c) := by
        intro t ht a b c hcorners
        obtain ⟨u, -, rfl⟩ := List.mem_map.1 ht
        exact along_triangleNormal hnormal hplane hcorners
      have hunit := facing_dot_facing hnormal
      refine ⟨facing exterior, by rw [Vec3.norm_eq, hunit, Real.sqrt_one], rfl, ?_⟩
      rw [hsmooth, Except.map, meshNormals_of_along hunit hturned]

/-! ### A triangle with a repeated point -/

/-- A level triangle whose last point is listed twice, so that one vertex is in no triangle. -/
noncomputable def stutteringTriangle : List (Vec3 ℝ) :=
  levelTriangle ++ levelTriangle.drop 2

theorem newellNormal_stutteringTriangle : newellNormal stutteringTriangle = ⟨0, 0, 12⟩ := by
  refine Vec3.ext_real ?_ ?_ ?_
  · show (0 : ℝ) + _ + _ + _ + _ = 0
    simp [newellTerm]
  · show (0 : ℝ) + _ + _ + _ + _ = 0
    simp [newellTerm]
  · show (0 : ℝ) + _ + _ + _ + _ = 12
    simp [newellTerm]
    norm_num

theorem ringScale_stutteringTriangle : ringScale stutteringTriangle = ringScale levelTriangle := by
  have hbox : Envelope.ofPoints stutteringTriangle = Envelope.ofPoints levelTriangle := by
    simp [Envelope.ofPoints, stutteringTriangle, levelTriangle, Envelope.addPoint, Vec3.isFinite,
      Envelope.inf, Envelope.sup]
  rw [ringScale, ringScale, hbox]

theorem accepted_stutteringTriangle : ¬ (newellNormal stutteringTriangle).norm ≤
    relativeEpsilon * ringScale stutteringTriangle * ringScale stutteringTriangle := by
  rw [newellNormal_stutteringTriangle, ← newellNormal_levelTriangle, ringScale_stutteringTriangle]
  exact accepted_levelTriangle

theorem projectRing_stutteringTriangle :
    (planeOf stutteringTriangle).projectRing stutteringTriangle =
      [⟨0, 0⟩, ⟨0, -4⟩, ⟨3, -4⟩, ⟨3, -4⟩] := by
  have hplane : planeOf stutteringTriangle = planeOf levelTriangle := by
    rw [planeOf, planeOf, facing, facing, newellNormal_stutteringTriangle,
      newellNormal_levelTriangle]
    rfl
  have hlast : (planeOf levelTriangle).project ⟨4, 3, 0⟩ = ⟨3, -4⟩ := by
    rw [planeOf_levelTriangle]
    simp [PlaneBasis.project, Vec3.dot]
  have hpoints : stutteringTriangle = levelTriangle ++ [⟨4, 3, 0⟩] := rfl
  rw [hplane, PlaneBasis.projectRing, hpoints, List.map_append]
  rw [show levelTriangle.map _ = _ from projectRing_levelTriangle, List.map_singleton, hlast]
  rfl

theorem checkTopology_stutteringTriangle :
    checkTopology ((planeOf stutteringTriangle).projectRing stutteringTriangle) []
      (relativeEpsilon * ringScale stutteringTriangle) = .ok () := by
  have hdedup : dedupRing [⟨0, 0⟩, ⟨0, -4⟩, ⟨3, -4⟩, (⟨3, -4⟩ : Vec2 ℝ)] =
      [⟨0, 0⟩, ⟨0, -4⟩, ⟨3, -4⟩] := by
    simp [dedupRing, dropRepeats, dropRepeats.go, dropClosing, Vec2.beq_mk]
  rw [projectRing_stutteringTriangle, checkTopology, hdedup]
  rfl

/-- The ear covers the triangle, although it leaves a vertex out. -/
theorem coveredArea_stutteringTriangle :
    coveredArea (flattened stutteringTriangle []) [⟨1, 2, 0⟩] =
      expectedArea stutteringTriangle [] := by
  have hexpected : expectedArea stutteringTriangle [] = 6 := by
    rw [expectedArea, areaBetween, ringSignedArea_exterior accepted_stutteringTriangle, ringArea,
      newellNormal_stutteringTriangle, ← newellNormal_levelTriangle,
      norm_newellNormal_levelTriangle]
    norm_num
  rw [flattened, projectRing_stutteringTriangle, hexpected]
  show (0 : ℝ) + |triangleSignedArea ⟨0, -4⟩ ⟨3, -4⟩ ⟨0, 0⟩| = 6
  rw [triangleSignedArea]
  norm_num

/-- All four vertices have the normal of the triangle, also the one that no triangle touches. -/
theorem smooth_stutteringTriangle :
    Coplanar (stutteringTriangle ++ [].flatten) ∧
    ∃ plain n, tessellateWith (fun _ _ => [⟨1, 2, 0⟩]) stutteringTriangle [] false = .ok plain ∧
      3 ∉ Triangle.indices plain.triangles ∧
      tessellateWith (fun _ _ => [⟨1, 2, 0⟩]) stutteringTriangle [] true =
        .ok { plain with normals := .perVertex [n, n, n, n] } := by
  have hcoplanar : Coplanar (stutteringTriangle ++ [].flatten) := by
    refine ⟨⟨0, 0, 0⟩, ⟨0, 0, 1⟩, fun h => one_ne_zero (congrArg Vec3.z h), ?_⟩
    simp [stutteringTriangle, levelTriangle, Vec3.dot]
  have hring : ringFault? stutteringTriangle 0 = none := by
    rw [ringFault?_eq_none_iff]
    constructor
    · exact fun p _ => rfl
    · simp [stutteringTriangle, levelTriangle, distinctCount, Vec3.same, Scalar.same]
  have harea : ¬ areaTolerance * Scalar.larger (Scalar.abs (expectedArea stutteringTriangle []))
      Scalar.minPositive < Scalar.abs (expectedArea stutteringTriangle [] -
        expectedArea stutteringTriangle []) := by
    have htolerance : (0 : ℝ) ≤ areaTolerance := by
      show (0 : ℝ) ≤ 1e-6
      norm_num
    rw [sub_self, Scalar.abs_real 0, abs_zero, Scalar.larger_real, not_lt]
    exact mul_nonneg htolerance (le_max_of_le_left (abs_nonneg _))
  have hplain : tessellateWith (fun _ _ => [⟨1, 2, 0⟩]) stutteringTriangle [] false =
      .ok ⟨stutteringTriangle ++ [].flatten,
        [orient (flattened stutteringTriangle []) ⟨1, 2, 0⟩],
        .uniform (facing stutteringTriangle)⟩ := by
    rw [tessellateWith_eq]
    · dsimp only
      rw [if_neg accepted_stutteringTriangle, List.map_nil, checkTopology_stutteringTriangle,
        coveredArea_stutteringTriangle, Except.bind, List.isEmpty_cons,
        if_neg Bool.false_ne_true, if_neg harea]
      rfl
    · rw [List.zipIdx_singleton, List.findSome?_singleton]
      exact hring
  obtain ⟨n, -, -, hsmooth⟩ := (smooth_of_coplanar _ hcoplanar).2 _ hplain
  refine ⟨hcoplanar, _, n, hplain, ?_, hsmooth⟩
  rcases orient_cases (flattened stutteringTriangle []) ⟨1, 2, 0⟩ with h | h <;> rw [h] <;> decide

end Tessellation

end CityScene
