import Mathlib.Algebra.BigOperators.Group.List.Basic
import CityScene.Proofs.Space.Products
import CityScene.Space.Ring

/-!
# Sums around a ring

A quantity that belongs to the points of a ring cancels out when its differences are added along the
edges (`sum_ringEdges_sub`).  That is why Newell's normal, which adds products of sums and
differences of coordinates, is also the sum of the cross products of neighbours, seen from any
point of space (`newellNormal_dot`), and why the shoelace sum gives nothing for fewer than three
points (`two_mul_ringSignedArea`).
-/

namespace CityScene

/-! ### Edges -/

section Edges

variable {α β : Type}

theorem map_fst_ringEdges (points : List α) : (ringEdges points).map Prod.fst = points := by
  cases points with
  | nil => rfl
  | cons p rest => exact List.map_fst_zip (by simp)

/-- The ends of the edges are the points, each once. -/
theorem map_snd_ringEdges (points : List α) :
    (ringEdges points).map Prod.snd = points.rotate 1 := by
  cases points with
  | nil => rfl
  | cons p rest =>
    rw [ringEdges, List.map_snd_zip (by simp), List.rotate_cons_succ, List.rotate_zero]

theorem ringEdges_map (f : α → β) (points : List α) :
    ringEdges (points.map f) = (ringEdges points).map (Prod.map f f) := by
  cases points with
  | nil => rfl
  | cons p rest =>
    rw [List.map_cons, ringEdges, ringEdges, ← List.zip_map, List.map_cons, List.map_append,
      List.map_singleton]

theorem mem_of_mem_ringEdges {points : List α} {e : α × α} (h : e ∈ ringEdges points) :
    e.1 ∈ points ∧ e.2 ∈ points := by
  have hfst := List.mem_map_of_mem (f := Prod.fst) h
  have hsnd := List.mem_map_of_mem (f := Prod.snd) h
  rw [map_fst_ringEdges] at hfst
  rw [map_snd_ringEdges, List.mem_rotate] at hsnd
  exact ⟨hfst, hsnd⟩

/-- **Differences cancel out around a ring.** -/
theorem sum_ringEdges_sub (g : α → ℝ) (points : List α) :
    ((ringEdges points).map fun e => g e.1 - g e.2).sum = 0 := by
  have hperm : (((ringEdges points).map Prod.snd).map g).sum =
      (((ringEdges points).map Prod.fst).map g).sum := by
    rw [map_fst_ringEdges, map_snd_ringEdges]
    exact ((points.rotate_perm 1).map g).sum_eq
  rw [List.map_map, List.map_map] at hperm
  have hadd : ((ringEdges points).map fun e => g e.1 - g e.2).sum +
      ((ringEdges points).map (g ∘ Prod.snd)).sum =
        ((ringEdges points).map (g ∘ Prod.fst)).sum := by
    rw [← List.sum_map_add]
    simp only [Function.comp_def, sub_add_cancel]
  exact add_eq_right.1 (hadd.trans hperm.symm)

/-- Sums along the edges are the same if what they add differs by such a difference. -/
theorem sum_ringEdges_congr {f f' : α × α → ℝ} (g : α → ℝ) (points : List α)
    (h : ∀ e, f e = f' e + (g e.1 - g e.2)) :
    ((ringEdges points).map f).sum = ((ringEdges points).map f').sum := by
  rw [funext h, List.sum_map_add, sum_ringEdges_sub, add_zero]

end Edges

/-! ### Areas -/

/-- Twice the signed area is the shoelace sum, for any number of points. -/
theorem two_mul_ringSignedArea (points : List (Vec2 ℝ)) :
    2 * ringSignedArea points =
      ((ringEdges points).map fun e => e.1.x * e.2.y - e.2.x * e.1.y).sum := by
  rw [ringSignedArea]
  split
  · next hfew =>
    -- with one or two points every edge is run through in both directions
    match points, hfew with
    | [], _ => simp [ringEdges]
    | [p], _ => simp [ringEdges, mul_comm]
    | [p, q], _ =>
      simp only [ringEdges, List.zip_cons_cons, List.cons_append, List.nil_append, List.map_cons,
        List.zip_nil_left, List.map_nil, List.sum_cons, List.sum_nil]
      ring
  · rw [foldl_add_eq_add_sum]
    ring

/-- A sum of vectors multiplies with a vector term by term. -/
theorem foldl_add_dot {α : Type} (f : α → Vec3 ℝ) (l : List α) (start w : Vec3 ℝ) :
    (l.foldl (fun sum a => sum + f a) start).dot w =
      start.dot w + (l.map fun a => (f a).dot w).sum := by
  induction l generalizing start with
  | nil => rw [List.foldl_nil, List.map_nil, List.sum_nil, add_zero]
  | cons a l ih =>
    rw [List.foldl_cons, ih, Vec3.add_dot, List.map_cons, List.sum_cons, add_assoc]

/-- **Newell's normal is the sum of the cross products of neighbours**, seen from any point. -/
theorem newellNormal_dot (points : List (Vec3 ℝ)) (o w : Vec3 ℝ) :
    (newellNormal points).dot w =
      ((ringEdges points).map fun e => ((e.1 - o).cross (e.2 - o)).dot w).sum := by
  rw [newellNormal, foldl_add_dot, Vec3.zero_dot, zero_add]
  -- the products of two coordinates of one point cancel out, and so does what the point `o` adds
  refine sum_ringEdges_congr
    (fun p => (p.cross o).dot w + (p.y * p.z * w.x + p.z * p.x * w.y + p.x * p.y * w.z)) points
    fun e => ?_
  simp only [newellTerm, Vec3.cross, Vec3.dot, Vec3.sub_x, Vec3.sub_y, Vec3.sub_z]
  ring

end CityScene
