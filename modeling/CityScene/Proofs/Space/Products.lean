import CityScene.Proofs.Scalar.Exact
import CityScene.Space.Vec

/-!
# Products of vectors

The dot product and the cross product in exact arithmetic.  Nearly all that geometry needs of them
follows from how two cross products multiply (`cross_dot_cross`): that a vector orthogonal to two
others is parallel to their cross product (`cross_cross_eq_zero`), that vectors parallel to a third
one are parallel (`cross_eq_zero_of_parallel`), and how long a vector is along a parallel one
(`abs_dot_of_cross_eq_zero`).
-/

namespace CityScene.Vec3

variable {p q r s : Vec3 ℝ}

@[simp]
theorem sub_x (p q : Vec3 ℝ) : (p - q).x = p.x - q.x := rfl

@[simp]
theorem sub_y (p q : Vec3 ℝ) : (p - q).y = p.y - q.y := rfl

@[simp]
theorem sub_z (p q : Vec3 ℝ) : (p - q).z = p.z - q.z := rfl

@[ext]
theorem ext_real (hx : p.x = q.x) (hy : p.y = q.y) (hz : p.z = q.z) : p = q := by
  cases p
  cases q
  exact congr (congr (congrArg mk hx) hy) hz

theorem dot_eq (p q : Vec3 ℝ) : p.dot q = p.x * q.x + p.y * q.y + p.z * q.z := rfl

theorem dot_comm (p q : Vec3 ℝ) : p.dot q = q.dot p := by
  rw [dot_eq, dot_eq]
  ring

theorem add_dot (p q r : Vec3 ℝ) : (p + q).dot r = p.dot r + q.dot r := by
  show (p.x + q.x) * r.x + (p.y + q.y) * r.y + (p.z + q.z) * r.z = _
  rw [dot_eq, dot_eq]
  ring

theorem sub_dot (p q r : Vec3 ℝ) : (p - q).dot r = p.dot r - q.dot r := by
  rw [dot_eq, dot_eq, dot_eq, sub_x, sub_y, sub_z]
  ring

@[simp]
theorem zero_x : (0 : Vec3 ℝ).x = 0 := rfl

@[simp]
theorem zero_y : (0 : Vec3 ℝ).y = 0 := rfl

@[simp]
theorem zero_z : (0 : Vec3 ℝ).z = 0 := rfl

theorem zero_dot (p : Vec3 ℝ) : (0 : Vec3 ℝ).dot p = 0 := by
  show 0 * p.x + 0 * p.y + 0 * p.z = 0
  ring

theorem dot_self_nonneg (p : Vec3 ℝ) : 0 ≤ p.dot p :=
  add_nonneg (add_nonneg (mul_self_nonneg p.x) (mul_self_nonneg p.y)) (mul_self_nonneg p.z)

/-- Only the zero vector has no length. -/
theorem eq_zero_of_dot_self (h : p.dot p = 0) : p = 0 := by
  rw [dot_eq] at h
  have hx2 := mul_self_nonneg p.x
  have hy2 := mul_self_nonneg p.y
  have hz2 := mul_self_nonneg p.z
  refine ext_real ?_ ?_ ?_
  · exact mul_self_eq_zero.1 (by linarith only [h, hx2, hy2, hz2])
  · exact mul_self_eq_zero.1 (by linarith only [h, hx2, hy2, hz2])
  · exact mul_self_eq_zero.1 (by linarith only [h, hx2, hy2, hz2])

/-! ### Cross products -/

/-- **The product of two cross products.** -/
theorem cross_dot_cross (p q r s : Vec3 ℝ) :
    (p.cross q).dot (r.cross s) = p.dot r * q.dot s - p.dot s * q.dot r := by
  simp only [cross, dot]
  ring

theorem cross_dot_left (p q : Vec3 ℝ) : (p.cross q).dot p = 0 := by
  simp only [cross, dot]
  ring

theorem cross_dot_right (p q : Vec3 ℝ) : (p.cross q).dot q = 0 := by
  simp only [cross, dot]
  ring

/-- A cross product crossed from the left with one of its factors. -/
theorem cross_cross_self (p q : Vec3 ℝ) :
    p.cross (q.cross p) = ⟨q.x * p.dot p - p.x * p.dot q, q.y * p.dot p - p.y * p.dot q,
      q.z * p.dot p - p.z * p.dot q⟩ := by
  apply ext_real <;> simp only [cross, dot] <;> ring

/-! ### Lengths -/

theorem norm_eq (p : Vec3 ℝ) : p.norm = Real.sqrt (p.dot p) := rfl

theorem norm_mul_norm (p : Vec3 ℝ) : p.norm * p.norm = p.dot p :=
  Real.mul_self_sqrt p.dot_self_nonneg

theorem shrink_dot (p q : Vec3 ℝ) (k : ℝ) : (p.shrink k).dot q = p.dot q / k := by
  simp only [shrink, dot]
  ring

theorem normalize_dot (p q : Vec3 ℝ) : p.normalize.dot q = p.dot q / p.norm :=
  shrink_dot p q p.norm

/-- A vector that is not zero becomes one of length one. -/
theorem normalize_dot_normalize (h : 0 < p.dot p) : p.normalize.dot p.normalize = 1 := by
  rw [normalize_dot, dot_comm, normalize_dot, div_div, norm_mul_norm, div_self h.ne']

/-- A vector of length one stays what it is. -/
theorem normalize_of_dot_self (h : p.dot p = 1) : p.normalize = p := by
  have hnorm : p.norm = 1 := by rw [norm_eq, h, Real.sqrt_one]
  rw [normalize, hnorm, shrink]
  exact ext_real (div_one _) (div_one _) (div_one _)

/-! ### Parallel vectors -/

/-- A vector that nothing multiplies with is zero. -/
theorem eq_zero_of_forall_dot (h : ∀ w, p.dot w = 0) : p = 0 :=
  eq_zero_of_dot_self (h p)

theorem cross_dot (p q r : Vec3 ℝ) : (p.cross q).dot r = p.dot (q.cross r) := by
  simp only [cross, dot]
  ring

/-- What is orthogonal to two vectors is parallel to their cross product. -/
theorem cross_cross_eq_zero (hp : p.dot r = 0) (hq : q.dot r = 0) : (p.cross q).cross r = 0 := by
  refine eq_zero_of_forall_dot fun w => ?_
  rw [cross_dot, cross_dot_cross, hp, hq]
  ring

/-- A multiple of a parallel vector. -/
theorem scale_of_cross_eq_zero (h : p.cross r = 0) :
    p.scale (r.dot r) = r.scale (p.dot r) := by
  have hself := cross_cross_self r p
  rw [h] at hself
  have hx : r.y * 0 - r.z * 0 = p.x * r.dot r - r.x * p.dot r :=
    dot_comm r p ▸ congrArg x hself
  have hy : r.z * 0 - r.x * 0 = p.y * r.dot r - r.y * p.dot r :=
    dot_comm r p ▸ congrArg y hself
  have hz : r.x * 0 - r.y * 0 = p.z * r.dot r - r.z * p.dot r :=
    dot_comm r p ▸ congrArg z hself
  rw [scale, scale]
  refine ext_real ?_ ?_ ?_
  · linarith only [hx]
  · linarith only [hy]
  · linarith only [hz]

/-- Vectors parallel to one that is not zero are parallel. -/
theorem cross_eq_zero_of_parallel (hr : 0 < r.dot r) (hp : p.cross r = 0) (hq : q.cross r = 0) :
    p.cross q = 0 := by
  have hscaled : (p.scale (r.dot r)).cross (q.scale (r.dot r)) = 0 := by
    rw [scale_of_cross_eq_zero hp, scale_of_cross_eq_zero hq]
    apply ext_real <;> simp only [cross, scale, zero_x, zero_y, zero_z] <;> ring
  refine eq_zero_of_forall_dot fun w => ?_
  have hw : (r.dot r * r.dot r) * (p.cross q).dot w = 0 := by
    have hdot := congrArg (dot · w) hscaled
    rw [zero_dot] at hdot
    rw [← hdot]
    simp only [cross, scale, dot]
    ring
  exact (mul_eq_zero.1 hw).resolve_left (mul_pos hr hr).ne'

theorem cross_normalize_eq_zero (h : p.cross q = 0) : p.cross q.normalize = 0 := by
  refine eq_zero_of_forall_dot fun w => ?_
  have hdot : (p.cross q.normalize).dot w = (p.cross q).dot w / q.norm := by
    simp only [normalize, shrink, cross, dot]
    ring
  rw [hdot, h, zero_dot, zero_div]

/-- A vector parallel to a unit vector has its full length along it. -/
theorem abs_dot_of_cross_eq_zero (hr : r.dot r = 1) (h : p.cross r = 0) : |p.dot r| = p.norm := by
  have hsquare : p.dot r * p.dot r = p.dot p := by
    have hlagrange := cross_dot_cross p r p r
    rw [h, zero_dot, hr, dot_comm r p] at hlagrange
    linarith only [hlagrange]
  rw [norm_eq, ← hsquare, Real.sqrt_mul_self_eq_abs]

end CityScene.Vec3
