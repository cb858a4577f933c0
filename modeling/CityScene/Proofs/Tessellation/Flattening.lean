import CityScene.Proofs.Space.Plane
import CityScene.Proofs.Tessellation.Basic

/-!
# Flattening an exterior ring

A ring that is not refused as degenerate has a normal of its own, so the plane it is flattened to
has a unit normal (`facing_dot_facing`).  Along that normal Newell's normal has its full length, and
so the ring turns counter-clockwise in its plane and bounds there the area that it bounds in space
(`ringSignedArea_exterior`).
-/

namespace CityScene.Tessellation

variable {exterior : List (Vec3 ℝ)}

/-- A ring is refused as degenerate if its normal is no longer than this. -/
theorem degenerate_bound_nonneg (points : List (Vec3 ℝ)) :
    0 ≤ relativeEpsilon * ringScale points * ringScale points := by
  have hepsilon : (0 : ℝ) ≤ relativeEpsilon := by
    show (0 : ℝ) ≤ 1e-10
    norm_num
  rw [mul_assoc]
  exact mul_nonneg hepsilon (mul_self_nonneg _)

section Accepted

variable (h : ¬ (newellNormal exterior).norm ≤
    relativeEpsilon * ringScale exterior * ringScale exterior)

include h

theorem newellNormal_norm_pos : 0 < (newellNormal exterior).norm :=
  (degenerate_bound_nonneg exterior).trans_lt (not_le.1 h)

theorem facing_dot_facing : (facing exterior).dot (facing exterior) = 1 := by
  have hpos := newellNormal_norm_pos h
  refine Vec3.normalize_dot_normalize ?_
  rw [← Vec3.norm_mul_norm]
  exact mul_pos hpos hpos

/-- Newell's normal points where the polygon faces. -/
theorem newellNormal_dot_facing :
    (newellNormal exterior).dot (facing exterior) = (newellNormal exterior).norm := by
  have hpos := newellNormal_norm_pos h
  rw [Vec3.dot_comm, facing, Vec3.normalize_dot, ← Vec3.norm_mul_norm, mul_div_assoc,
    div_self hpos.ne', mul_one]

theorem planeOf_u_cross_v : (planeOf exterior).u.cross (planeOf exterior).v = facing exterior :=
  PlaneBasis.u_cross_v _ (facing_dot_facing h)

/-- **The exterior turns counter-clockwise in its plane and keeps its area.** -/
theorem ringSignedArea_exterior :
    ringSignedArea ((planeOf exterior).projectRing exterior) = ringArea exterior := by
  have htwice := (planeOf exterior).two_mul_ringSignedArea_projectRing exterior
  rw [planeOf_u_cross_v h, newellNormal_dot_facing h] at htwice
  rw [ringArea, ← htwice]
  ring

theorem ringArea_exterior_pos : 0 < ringArea exterior := by
  rw [ringArea]
  exact mul_pos (newellNormal_norm_pos h) (by norm_num)

end Accepted

/-- **Plane bases do not distort.**  For a unit normal nothing short is normalised, the axes have
length one, are orthogonal and form a right-handed system with the normal, and the area of a
flattened ring is half of what Newell's normal of the ring is along the normal.  So an exterior that
is not refused as degenerate turns counter-clockwise in its plane, where it bounds the same area as
in space. -/
theorem planeBasis_flattens (origin n : Vec3 ℝ) (hn : n.norm = 1) :
    let b := PlaneBasis.ofNormal origin n
    let w := n.cross (PlaneBasis.referenceAxis n)
    (2 / 3 ≤ w.dot w ∧ (n.cross b.u).dot (n.cross b.u) = 1) ∧
    (b.u.norm = 1 ∧ b.v.norm = 1 ∧ b.u.dot b.v = 0 ∧ b.u.dot n = 0 ∧ b.v.dot n = 0 ∧
      b.u.cross b.v = n) ∧
    (∀ points : List (Vec3 ℝ),
      2 * ringSignedArea (b.projectRing points) = (newellNormal points).dot n) ∧
    ∀ exterior : List (Vec3 ℝ),
      ¬ (newellNormal exterior).norm ≤
        relativeEpsilon * ringScale exterior * ringScale exterior →
      let plane := PlaneBasis.ofNormal (exterior.headD 0) (newellNormal exterior).normalize
      0 < ringSignedArea (plane.projectRing exterior) ∧
        ringSignedArea (plane.projectRing exterior) = ringArea exterior := by
  have hunit : n.dot n = 1 := by rw [← Vec3.norm_mul_norm, hn, one_mul]
  have hright := PlaneBasis.u_cross_v origin hunit
  have hv : (PlaneBasis.ofNormal origin n).v.dot n = 0 := by
    rw [PlaneBasis.v_eq origin hunit, Vec3.cross_dot_left]
  refine ⟨⟨PlaneBasis.two_thirds_le_cross_referenceAxis hunit,
    PlaneBasis.cross_u_dot_cross_u origin hunit⟩,
    ⟨?_, ?_, PlaneBasis.u_dot_v origin hunit, PlaneBasis.u_dot_normal origin n, hv, hright⟩,
    fun points => ?_, fun exterior hexterior => ?_⟩
  · rw [Vec3.norm_eq, PlaneBasis.u_dot_u origin hunit, Real.sqrt_one]
  · rw [Vec3.norm_eq, PlaneBasis.v_dot_v origin hunit, Real.sqrt_one]
  · rw [PlaneBasis.two_mul_ringSignedArea_projectRing, hright]
  · have harea := ringSignedArea_exterior hexterior
    exact ⟨harea.symm ▸ ringArea_exterior_pos hexterior, harea⟩

/-! ### A triangle -/

/-- A level triangle with a right angle. -/
noncomputable def levelTriangle : List (Vec3 ℝ) :=
  [⟨0, 0, 0⟩, ⟨4, 0, 0⟩, ⟨4, 3, 0⟩]

theorem newellNormal_levelTriangle : newellNormal levelTriangle = ⟨0, 0, 12⟩ := by
  refine Vec3.ext_real ?_ ?_ ?_
  · show (0 : ℝ) + _ + _ + _ = 0
    simp [newellTerm]
  · show (0 : ℝ) + _ + _ + _ = 0
    simp [newellTerm]
  · show (0 : ℝ) + _ + _ + _ = 12
    simp [newellTerm]
    norm_num

theorem norm_newellNormal_levelTriangle : (newellNormal levelTriangle).norm = 12 := by
  rw [newellNormal_levelTriangle, Vec3.norm_eq, Vec3.dot_eq, Real.sqrt_eq_iff_mul_self_eq] <;>
    norm_num

theorem ringScale_levelTriangle : ringScale levelTriangle = 5 := by
  have hbox : Envelope.ofPoints levelTriangle = .box ⟨0, 0, 0⟩ ⟨4, 3, 0⟩ := by
    simp [Envelope.ofPoints, levelTriangle, Envelope.addPoint, Vec3.isFinite, Envelope.inf,
      Envelope.sup]
  have hdiagonal : (⟨4, 3, 0⟩ - ⟨0, 0, 0⟩ : Vec3 ℝ).norm = 5 := by
    rw [Vec3.norm_eq, Vec3.dot_eq, Real.sqrt_eq_iff_mul_self_eq] <;> norm_num
  have hsmall : (Scalar.minPositive : ℝ) ≤ 5 := by
    rw [Scalar.minPositive_real]
    exact (pow_le_one₀ (by norm_num) (by norm_num)).trans (by norm_num)
  rw [ringScale, hbox]
  simp only [Envelope.size?, Option.map_some, Option.getD_some, hdiagonal, Scalar.larger_real]
  exact max_eq_left hsmall

theorem accepted_levelTriangle : ¬ (newellNormal levelTriangle).norm ≤
    relativeEpsilon * ringScale levelTriangle * ringScale levelTriangle := by
  rw [norm_newellNormal_levelTriangle, ringScale_levelTriangle]
  show ¬ (12 : ℝ) ≤ 1e-10 * 5 * 5
  norm_num

/-- A plane that leans along all three axes, and the triangle seen along its normal. -/
theorem planeBasis_slanted :
    (⟨1 / 3, 2 / 3, 2 / 3⟩ : Vec3 ℝ).norm = 1 ∧
    let b := PlaneBasis.ofNormal (0 : Vec3 ℝ) ⟨1 / 3, 2 / 3, 2 / 3⟩
    b.u.cross b.v = ⟨1 / 3, 2 / 3, 2 / 3⟩ ∧ ringSignedArea (b.projectRing levelTriangle) = 4 ∧
    ringSignedArea ((planeOf levelTriangle).projectRing levelTriangle) =
      ringArea levelTriangle := by
  have hunit : (⟨1 / 3, 2 / 3, 2 / 3⟩ : Vec3 ℝ).norm = 1 := by
    rw [Vec3.norm_eq, Vec3.dot_eq, Real.sqrt_eq_one]
    norm_num
  obtain ⟨-, ⟨-, -, -, -, -, hright⟩, hareas, hexteriors⟩ := planeBasis_flattens 0 _ hunit
  refine ⟨hunit, hright, ?_, (hexteriors levelTriangle accepted_levelTriangle).2⟩
  have harea := hareas levelTriangle
  rw [newellNormal_levelTriangle, Vec3.dot_eq] at harea
  dsimp only at harea
  linarith

end CityScene.Tessellation
