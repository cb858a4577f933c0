import CityScene.Proofs.Space.Newell
import CityScene.Space.Plane

/-!
# Flattening without distortion

The reference axis of a unit normal is so far from parallel to it that their cross product is never
short (`two_thirds_le_cross_referenceAxis`).  So both axes of a plane basis are what they are meant
to be, and with the normal they form a right-handed system (`u_cross_v`).

The product of what two vectors project to is then what their cross product is along the normal
(`project_cross`).  With that the shoelace sum of a flattened ring is Newell's normal of the ring
along the normal of the plane, whatever the ring looks like (`two_mul_ringSignedArea_projectRing`).
-/

namespace CityScene.PlaneBasis

/-! ### The axes -/

/-- The reference axis is one of the three world axes, along which the vector reaches least. -/
theorem referenceAxis_spec (n : Vec3 ℝ) :
    (referenceAxis n).dot (referenceAxis n) = 1 ∧
      3 * (n.dot (referenceAxis n) * n.dot (referenceAxis n)) ≤ n.dot n := by
  rw [referenceAxis]
  dsimp only [Scalar.abs_real]
  split
  · next h =>
    have hy := abs_le_iff_mul_self_le.1 h.1
    have hz := abs_le_iff_mul_self_le.1 h.2
    simp only [Vec3.dot]
    constructor <;> nlinarith only [hy, hz]
  · next hx =>
    have hx : |n.y| < |n.x| ∨ |n.z| < |n.x| := by
      rw [not_and_or, not_le, not_le] at hx
      exact hx
    split
    · next hyz =>
      have hyx : |n.y| ≤ |n.x| := hx.elim le_of_lt fun h => (hyz.trans_lt h).le
      have hx := abs_le_iff_mul_self_le.1 hyx
      have hz := abs_le_iff_mul_self_le.1 hyz
      simp only [Vec3.dot]
      constructor <;> nlinarith only [hx, hz]
    · next hyz =>
      have hzy : |n.z| < |n.y| := not_le.1 hyz
      have hzx : |n.z| < |n.x| := hx.elim hzy.trans id
      have hx := abs_le_iff_mul_self_le.1 hzx.le
      have hy := abs_le_iff_mul_self_le.1 hzy.le
      simp only [Vec3.dot]
      constructor <;> nlinarith only [hx, hy]

variable {n : Vec3 ℝ}

/-- **The cross product with the reference axis is never short.** -/
theorem two_thirds_le_cross_referenceAxis (hn : n.dot n = 1) :
    2 / 3 ≤ (n.cross (referenceAxis n)).dot (n.cross (referenceAxis n)) := by
  obtain ⟨hunit, hleast⟩ := referenceAxis_spec n
  rw [hn] at hleast
  rw [Vec3.cross_dot_cross, hn, hunit, Vec3.dot_comm (referenceAxis n) n]
  linarith

theorem u_dot_u (origin : Vec3 ℝ) (hn : n.dot n = 1) :
    (ofNormal origin n).u.dot (ofNormal origin n).u = 1 := by
  have hlong := two_thirds_le_cross_referenceAxis hn
  exact Vec3.normalize_dot_normalize (by linarith)

theorem u_dot_normal (origin n : Vec3 ℝ) : (ofNormal origin n).u.dot n = 0 := by
  show (n.cross (referenceAxis n)).normalize.dot n = 0
  rw [Vec3.normalize_dot, Vec3.cross_dot_left, zero_div]

/-- The normal and the first axis are orthogonal, so their cross product has length one. -/
theorem cross_u_dot_cross_u (origin : Vec3 ℝ) (hn : n.dot n = 1) :
    (n.cross (ofNormal origin n).u).dot (n.cross (ofNormal origin n).u) = 1 := by
  rw [Vec3.cross_dot_cross, hn, u_dot_u origin hn, u_dot_normal]
  ring

/-- The second axis needs no stretching. -/
theorem v_eq (origin : Vec3 ℝ) (hn : n.dot n = 1) :
    (ofNormal origin n).v = n.cross (ofNormal origin n).u :=
  Vec3.normalize_of_dot_self (cross_u_dot_cross_u origin hn)

theorem v_dot_v (origin : Vec3 ℝ) (hn : n.dot n = 1) :
    (ofNormal origin n).v.dot (ofNormal origin n).v = 1 := by
  rw [v_eq origin hn, cross_u_dot_cross_u origin hn]

theorem u_dot_v (origin : Vec3 ℝ) (hn : n.dot n = 1) :
    (ofNormal origin n).u.dot (ofNormal origin n).v = 0 := by
  rw [v_eq origin hn, Vec3.dot_comm, Vec3.cross_dot_right]

/-- **The axes and the normal are a right-handed system.** -/
theorem u_cross_v (origin : Vec3 ℝ) (hn : n.dot n = 1) :
    (ofNormal origin n).u.cross (ofNormal origin n).v = n := by
  rw [v_eq origin hn, Vec3.cross_cross_self, u_dot_u origin hn, u_dot_normal]
  apply Vec3.ext_real <;> ring

/-! ### Flattening -/

/-- What two points project to spans what their cross product is along that of the axes. -/
theorem project_cross (b : PlaneBasis ℝ) (p q : Vec3 ℝ) :
    (b.project p).x * (b.project q).y - (b.project q).x * (b.project p).y =
      ((p - b.origin).cross (q - b.origin)).dot (b.u.cross b.v) := by
  rw [Vec3.cross_dot_cross, project, project]
  ring

/-- **Flattening keeps areas**: the area of a flattened ring is Newell's normal of the ring along
the normal of the plane. -/
theorem two_mul_ringSignedArea_projectRing (b : PlaneBasis ℝ) (points : List (Vec3 ℝ)) :
    2 * ringSignedArea (b.projectRing points) = (newellNormal points).dot (b.u.cross b.v) := by
  rw [two_mul_ringSignedArea, projectRing, ringEdges_map, List.map_map,
    newellNormal_dot points b.origin]
  refine congrArg List.sum (List.map_congr_left fun e _ => ?_)
  exact b.project_cross e.1 e.2

/-- So does flattening triangles. -/
theorem two_mul_triangleSignedArea_project (b : PlaneBasis ℝ) (p q r : Vec3 ℝ) :
    2 * triangleSignedArea (b.project p) (b.project q) (b.project r) =
      (triangleNormal p q r).dot (b.u.cross b.v) := by
  rw [triangleNormal, Vec3.cross_dot_cross, triangleSignedArea]
  simp only [project, Vec3.sub_dot]
  ring

end CityScene.PlaneBasis
