import Mathlib.Analysis.Real.Sqrt
import Mathlib.Tactic.NormNum
import Mathlib.Tactic.Positivity
import Mathlib.Tactic.Ring
import Mathlib.Tactic.Linarith
import CityScene.Scalar

/-!
# Exact arithmetic

Read at the real numbers, the formulas of geometry do not round and every number is finite.  Here
are the reals as scalars, and what the operations that only scalars have come to there.
-/

namespace CityScene

noncomputable instance instScalarReal : Scalar ℝ where
  decLt := inferInstance
  decLe := inferInstance
  abs x := |x|
  sqrt := Real.sqrt
  isFinite _ := true
  minPositive := 2⁻¹ ^ 1022

namespace Scalar

@[simp]
theorem abs_real (a : ℝ) : Scalar.abs a = |a| := rfl

@[simp]
theorem sqrt_real (a : ℝ) : Scalar.sqrt a = Real.sqrt a := rfl

@[simp]
theorem isFinite_real (a : ℝ) : Scalar.isFinite a = true := rfl

theorem minPositive_real : (Scalar.minPositive : ℝ) = 2⁻¹ ^ 1022 := rfl

@[simp]
theorem beq_real (a b : ℝ) : (a == b) = decide (a = b) := rfl

@[simp]
theorem larger_real (a b : ℝ) : Scalar.larger a b = max a b := by
  rw [larger]
  split
  · next h => exact (max_eq_right h.le).symm
  · next h =>
    rw [beq_self_eq_true, if_pos rfl]
    exact (max_eq_left (not_lt.1 h)).symm

@[simp]
theorem smaller_real (a b : ℝ) : Scalar.smaller a b = min a b := by
  rw [smaller]
  split
  · next h => exact (min_eq_right h.le).symm
  · next h =>
    rw [beq_self_eq_true, if_pos rfl]
    exact (min_eq_left (not_lt.1 h)).symm

end Scalar

/-- A running sum is where it starts and the sum of what is added. -/
theorem foldl_add_eq_add_sum {α : Type} (f : α → ℝ) (l : List α) (start : ℝ) :
    l.foldl (fun sum a => sum + f a) start = start + (l.map f).sum := by
  induction l generalizing start with
  | nil => rw [List.foldl_nil, List.map_nil, List.sum_nil, add_zero]
  | cons a l ih => rw [List.foldl_cons, ih, List.map_cons, List.sum_cons, add_assoc]

end CityScene
