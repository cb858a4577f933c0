import CityScene.Proofs.Scalar.Same
import CityScene.Tessellation.Topology

/-!
# Tests of points and segments

The tests that rings are checked with take two segments in either order (`segmentsMeet_comm`).  They
see no difference between points whose coordinates are the same (`segmentsMeet_congr`), which takes
a thought only where the ray test divides: it does so by a difference of coordinates that are not
equal (`rayCrosses_congr`).

In exact arithmetic the tests do not depend on the direction of a segment either
(`segmentsMeet_swap`): turned around, a segment has the other side of it to the left.
-/

namespace CityScene

open Scalar (same)
open CongruentScalar

variable {K : Type} [Scalar K]

/-! ### The same points -/

/-- The coordinates of the points are the same. -/
def Vec2.Same (p q : Vec2 K) : Prop :=
  same p.x q.x = true ∧ same p.y q.y = true

/-- The ends of the edges are the same. -/
def SameEdge (e f : Vec2 K × Vec2 K) : Prop :=
  e.1.Same f.1 ∧ e.2.Same f.2

theorem Vec2.beq_mk (x y x' y' : K) :
    ((⟨x, y⟩ : Vec2 K) == ⟨x', y'⟩) = (x == x' && y == y') :=
  rfl

namespace Vec2.Same

theorem refl (p : Vec2 K) : p.Same p :=
  ⟨Scalar.same_self p.x, Scalar.same_self p.y⟩

theorem of_beq {p q : Vec2 K} (h : (p == q) = true) : p.Same q := by
  obtain ⟨hx, hy⟩ := Bool.and_eq_true_iff.1 h
  exact ⟨Scalar.same_of_beq hx, Scalar.same_of_beq hy⟩

variable [CongruentScalar K] {p p' q q' r : Vec2 K}

theorem symm (h : p.Same q) : q.Same p :=
  ⟨same_symm h.1, same_symm h.2⟩

theorem trans (h : p.Same q) (h' : q.Same r) : p.Same r :=
  ⟨same_trans h.1 h'.1, same_trans h.2 h'.2⟩

theorem beq_eq (hp : p.Same p') (hq : q.Same q') : (p == q) = (p' == q') := by
  show (p.x == q.x && p.y == q.y) = (p'.x == q'.x && p'.y == q'.y)
  rw [beq_congr hp.1 hq.1, beq_congr hp.2 hq.2]

theorem beq_comm (p q : Vec2 K) : (p == q) = (q == p) := by
  have hbeq {p q : Vec2 K} (h : (p == q) = true) : (q == p) = true := by
    rwa [← beq_eq (of_beq h) (of_beq h).symm]
  exact Bool.eq_iff_iff.2 ⟨hbeq, hbeq⟩

theorem sub (hp : p.Same p') (hq : q.Same q') : (p - q).Same (p' - q') :=
  ⟨sub_same hp.1 hq.1, sub_same hp.2 hq.2⟩

theorem norm (h : p.Same p') : same p.norm p'.norm = true :=
  sqrt_same (add_same (mul_same h.1 h.1) (mul_same h.2 h.2))

end Vec2.Same

namespace Tessellation

section Congruence

variable [CongruentScalar K]

theorem orientation_same {a a' b b' c c' : Vec2 K} (ha : a.Same a') (hb : b.Same b')
    (hc : c.Same c') : same (orientation a b c) (orientation a' b' c') = true :=
  sub_same (mul_same (sub_same hb.1 ha.1) (sub_same hc.2 ha.2))
    (mul_same (sub_same hb.2 ha.2) (sub_same hc.1 ha.1))

theorem sign_congr {value value' tolerance tolerance' : K} (hvalue : same value value' = true)
    (htolerance : same tolerance tolerance' = true) :
    sign value tolerance = sign value' tolerance' := by
  rw [sign, sign, if_congr (lt_congr htolerance hvalue) rfl
    (if_congr (lt_congr hvalue (neg_same htolerance)) rfl rfl)]

/-- How far from a segment a point may lie to be taken for one on it. -/
theorem reach_same {a a' b b' : Vec2 K} (ha : a.Same a') (hb : b.Same b') (tolerance : K) :
    same (tolerance * Scalar.larger (b - a).norm tolerance)
      (tolerance * Scalar.larger (b' - a').norm tolerance) = true :=
  mul_same (Scalar.same_self _) (Scalar.larger_same (hb.sub ha).norm (Scalar.same_self _))

theorem onSegment_congr {p p' a a' b b' : Vec2 K} (hp : p.Same p') (ha : a.Same a')
    (hb : b.Same b') (tolerance : K) :
    onSegment p a b tolerance = onSegment p' a' b' tolerance := by
  have hself := Scalar.same_self tolerance
  rw [onSegment, onSegment, sign_congr (orientation_same ha hb hp) (reach_same ha hb tolerance),
    decide_eq_decide.2 (le_congr (sub_same (Scalar.smaller_same ha.1 hb.1) hself) hp.1),
    decide_eq_decide.2 (le_congr hp.1 (add_same (Scalar.larger_same ha.1 hb.1) hself)),
    decide_eq_decide.2 (le_congr (sub_same (Scalar.smaller_same ha.2 hb.2) hself) hp.2),
    decide_eq_decide.2 (le_congr hp.2 (add_same (Scalar.larger_same ha.2 hb.2) hself))]

theorem sides_congr {p p' q q' : Vec2 K × Vec2 K} (hp : SameEdge p p') (hq : SameEdge q q')
    (tolerance : K) : sides p q tolerance = sides p' q' tolerance := by
  have hreach := reach_same hq.1 hq.2 tolerance
  rw [sides, sides, sign_congr (orientation_same hq.1 hq.2 hp.1) hreach,
    sign_congr (orientation_same hq.1 hq.2 hp.2) hreach]

theorem segmentsCross_congr {p p' q q' : Vec2 K × Vec2 K} (hp : SameEdge p p')
    (hq : SameEdge q q') (tolerance : K) :
    segmentsCross p q tolerance = segmentsCross p' q' tolerance := by
  rw [segmentsCross, segmentsCross, sides_congr hp hq, sides_congr hq hp]

theorem segmentsMeet_congr {p p' q q' : Vec2 K × Vec2 K} (hp : SameEdge p p')
    (hq : SameEdge q q') (tolerance : K) :
    segmentsMeet p q tolerance = segmentsMeet p' q' tolerance := by
  rw [segmentsMeet, segmentsMeet, segmentsCross_congr hp hq, sides_congr hp hq, sides_congr hq hp,
    onSegment_congr hp.1 hq.1 hq.2, onSegment_congr hp.2 hq.1 hq.2,
    onSegment_congr hq.1 hp.1 hp.2, onSegment_congr hq.2 hp.1 hp.2]

/-- An edge that a ray can cross has its ends at different heights, so the ray test divides by a
number that does not change with the zeros among them. -/
theorem rayCrosses_congr {p p' : Vec2 K} {e e' : Vec2 K × Vec2 K} (hp : p.Same p')
    (he : SameEdge e e') : rayCrosses p e = rayCrosses p' e' := by
  obtain ⟨a, b⟩ := e
  obtain ⟨a', b'⟩ := e'
  obtain ⟨ha, hb⟩ : a.Same a' ∧ b.Same b' := he
  have habove (c c' : Vec2 K) (hc : c.Same c') : decide (p.y < c.y) = decide (p'.y < c'.y) :=
    decide_eq_decide.2 (lt_congr hp.2 hc.2)
  rw [rayCrosses, rayCrosses, habove a a' ha, habove b b' hb]
  by_cases hlevel : (b.y == a.y) = true
  · have hsame : decide (p'.y < a'.y) = decide (p'.y < b'.y) := by
      rw [← habove a a' ha, ← habove b b' hb]
      exact decide_eq_decide.2
        (lt_congr (Scalar.same_self _) (same_symm (Scalar.same_of_beq hlevel)))
    simp [hsame]
  · have hheight : b.y - a.y = b'.y - a'.y :=
      sub_eq hb.2 ha.2 (Bool.eq_false_iff.2 hlevel)
    refine congrArg (_ && ·) (decide_eq_decide.2 (lt_congr hp.1 ?_))
    rw [hheight]
    exact add_same ha.1 (div_same _ (mul_same (sub_same hp.2 ha.2) (sub_same hb.1 ha.1)))

end Congruence

/-! ### Two segments in either order -/

theorem segmentsCross_comm (p q : Vec2 K × Vec2 K) (tolerance : K) :
    segmentsCross p q tolerance = segmentsCross q p tolerance :=
  Bool.and_comm ..

theorem segmentsMeet_comm (p q : Vec2 K × Vec2 K) (tolerance : K) :
    segmentsMeet p q tolerance = segmentsMeet q p tolerance := by
  rw [segmentsMeet, segmentsMeet, segmentsCross_comm]
  ac_rfl

/-! ### Segments turned around -/

section Exact

theorem orientation_swap (a b c : Vec2 ℝ) : orientation b a c = -orientation a b c := by
  rw [orientation, orientation]
  ring

theorem norm_sub_comm (a b : Vec2 ℝ) : (a - b).norm = (b - a).norm := by
  have hdot : (a - b).dot (a - b) = (b - a).dot (b - a) := by
    show (a.x - b.x) * (a.x - b.x) + (a.y - b.y) * (a.y - b.y) =
      (b.x - a.x) * (b.x - a.x) + (b.y - a.y) * (b.y - a.y)
    ring
  rw [Vec2.norm, Vec2.norm, hdot]

theorem sign_neg {tolerance : ℝ} (h : 0 ≤ tolerance) (value : ℝ) :
    sign (-value) tolerance = -sign value tolerance := by
  rw [sign, sign]
  split_ifs <;> first | rfl | (exfalso; linarith)

theorem neg_beq_zero (d : Int) : (-d == 0) = (d == 0) := by
  rw [Bool.eq_iff_iff, beq_iff_eq, beq_iff_eq, neg_eq_zero]

variable {tolerance : ℝ} (h : 0 ≤ tolerance)

include h

theorem reach_nonneg (a b : Vec2 ℝ) :
    0 ≤ tolerance * Scalar.larger (b - a).norm tolerance := by
  rw [Scalar.larger_real]
  exact mul_nonneg h (le_max_of_le_right h)

theorem onSegment_swap (p a b : Vec2 ℝ) :
    onSegment p b a tolerance = onSegment p a b tolerance := by
  have hsign := sign_neg (reach_nonneg h a b) (orientation a b p)
  simp only [Scalar.larger_real] at hsign
  simp only [onSegment, orientation_swap a b, norm_sub_comm a b, Scalar.smaller_real,
    Scalar.larger_real, hsign, neg_beq_zero, min_comm b.x, min_comm b.y, max_comm b.x,
    max_comm b.y]

omit h in
theorem sides_swap_left (p q : Vec2 ℝ × Vec2 ℝ) :
    sides p.swap q tolerance = (sides p q tolerance).swap :=
  rfl

theorem sides_swap_right (p q : Vec2 ℝ × Vec2 ℝ) :
    sides p q.swap tolerance = (-(sides p q tolerance).1, -(sides p q tolerance).2) := by
  rw [sides, sides, Prod.fst_swap, Prod.snd_swap, orientation_swap q.1 q.2, orientation_swap q.1 q.2,
    norm_sub_comm q.1 q.2, sign_neg (reach_nonneg h _ _), sign_neg (reach_nonneg h _ _)]

/-- The sides only count for whether they are the same. -/
theorem segmentsCross_swap (p q : Vec2 ℝ × Vec2 ℝ) :
    segmentsCross p q.swap tolerance = segmentsCross p q tolerance := by
  rw [segmentsCross, segmentsCross, sides_swap_right h, sides_swap_left, Prod.fst_swap,
    Prod.snd_swap, mul_comm (sides q p tolerance).2]
  simp

theorem segmentsMeet_swap (p q : Vec2 ℝ × Vec2 ℝ) :
    segmentsMeet p q.swap tolerance = segmentsMeet p q tolerance := by
  simp only [segmentsMeet, segmentsCross_swap h, sides_swap_right h, sides_swap_left, Prod.fst_swap,
    Prod.snd_swap, onSegment_swap h _ q.1 q.2, neg_beq_zero]
  ac_rfl

omit h in
/-- A ray crosses the line through two points of different heights at the same place, from
whichever of them it is found. -/
theorem rayCrosses_swap (p : Vec2 ℝ) (e : Vec2 ℝ × Vec2 ℝ) :
    rayCrosses p e.swap = rayCrosses p e := by
  obtain ⟨a, b⟩ := e
  rw [Prod.swap, rayCrosses, rayCrosses]
  by_cases hlevel : a.y = b.y
  · simp [hlevel]
  · have hplace : b.x + (p.y - b.y) * (a.x - b.x) / (a.y - b.y) =
        a.x + (p.y - a.y) * (b.x - a.x) / (b.y - a.y) := by
      have hab : a.y - b.y ≠ 0 := sub_ne_zero.2 hlevel
      have hba : b.y - a.y ≠ 0 := sub_ne_zero.2 (Ne.symm hlevel)
      field_simp
      ring
    rw [hplace, bne_comm]

end Exact

end Tessellation

end CityScene
