import CityScene.Proofs.Space.Newell
import Mathlib.Data.List.Zip

/-!
# Cycles

A ring can be listed from any of its points on and in either direction.  Its edges then are those of
the ring listed from another one on (`ringEdges_rotate`), or turned around and in opposite order
(`isRotated_ringEdges_reverse`).

`HasApart R l` says of a cycle that two of its elements that are no neighbours are related.  This
does not depend on where the cycle is cut open, nor on the direction in which it is listed.
-/

namespace CityScene

variable {α β : Type}

/-! ### Edges -/

theorem isRotated_filter {l l' : List α} (h : l ~r l') (test : α → Bool) :
    l.filter test ~r l'.filter test := by
  obtain ⟨n, hn, rfl⟩ := List.isRotated_iff_mod.1 h
  have hsplit : l.filter test = (l.take n).filter test ++ (l.drop n).filter test := by
    rw [← List.filter_append, List.take_append_drop]
  rw [List.rotate_eq_drop_append_take hn, List.filter_append, hsplit]
  exact List.isRotated_append

theorem ringEdges_eq_zip (points : List α) : ringEdges points = points.zip (points.rotate 1) := by
  cases points with
  | nil => rfl
  | cons p rest => rw [ringEdges, List.rotate_cons_succ, List.rotate_zero]

theorem length_ringEdges (points : List α) : (ringEdges points).length = points.length := by
  rw [ringEdges_eq_zip, List.length_zip, List.length_rotate, Nat.min_self]

theorem ringEdges_rotate (points : List α) (n : Nat) :
    ringEdges (points.rotate n) = (ringEdges points).rotate n := by
  rw [ringEdges_eq_zip, ringEdges_eq_zip, List.rotate_rotate, Nat.add_comm, ← List.rotate_rotate,
    List.zip_eq_zipWith, List.zip_eq_zipWith,
    List.zipWith_rotate_distrib _ _ _ _ (List.length_rotate ..).symm]

theorem isRotated_ringEdges {points points' : List α} (h : points ~r points') :
    ringEdges points ~r ringEdges points' := by
  obtain ⟨n, rfl⟩ := h
  exact ⟨n, (ringEdges_rotate points n).symm⟩

/-- The steps of a path that starts from a point. -/
def stepsFrom (p : α) : List α → List (α × α)
  | [] => []
  | q :: path => (p, q) :: stepsFrom q path

theorem ringEdges_cons (p : α) (rest : List α) :
    ringEdges (p :: rest) = stepsFrom p (rest ++ [p]) := by
  have hzip (q : α) (path : List α) :
      (q :: path).zip (path ++ [p]) = stepsFrom q (path ++ [p]) := by
    induction path generalizing q with
    | nil => rfl
    | cons r path ih => rw [List.cons_append, List.zip_cons_cons, ih, stepsFrom]
  exact hzip p rest

/-- Turned around, the edges are those of the ring in the opposite direction. -/
theorem isRotated_ringEdges_reverse (points : List α) :
    ringEdges points.reverse ~r ((ringEdges points).map Prod.swap).reverse := by
  have hnext : (points.rotate 1).reverse.rotate 1 = points.reverse := by
    cases points with
    | nil => rfl
    | cons p rest => simp
  have hedges : ((ringEdges points).map Prod.swap).reverse =
      ringEdges (points.rotate 1).reverse := by
    rw [ringEdges_eq_zip, ringEdges_eq_zip, hnext, List.zip_swap, List.zip_eq_zipWith,
      List.zip_eq_zipWith, List.reverse_zipWith (List.length_rotate ..)]
  rw [hedges]
  exact isRotated_ringEdges (List.IsRotated.reverse ⟨1, rfl⟩)

/-! ### Elements that are no neighbours -/

/-- Two elements of a cycle that are no neighbours are related. -/
def HasApart (R : α → α → Prop) (l : List α) : Prop :=
  ∃ i j a b, l[i]? = some a ∧ l[j]? = some b ∧ i + 2 ≤ j ∧ ¬ (i = 0 ∧ j + 1 = l.length) ∧ R a b

theorem HasApart.of_rotate_one {R : α → α → Prop} (hR : ∀ a b, R a b → R b a) {l : List α}
    (h : HasApart R (l.rotate 1)) : HasApart R l := by
  obtain ⟨i, j, a, b, ha, hb, hij, hends, hab⟩ := h
  have hj : j < l.length := by
    simpa using (List.getElem?_eq_some_iff.1 hb).1
  rw [List.getElem?_rotate (by omega)] at ha hb
  rw [List.length_rotate] at hends
  rw [Nat.mod_eq_of_lt (by omega)] at ha
  by_cases hlast : j + 1 = l.length
  · -- the last element has been the first
    rw [hlast, Nat.mod_self] at hb
    exact ⟨0, i + 1, b, a, hb, ha, by omega, by omega, hR a b hab⟩
  · rw [Nat.mod_eq_of_lt (by omega)] at hb
    exact ⟨i + 1, j + 1, a, b, ha, hb, by omega, by omega, hab⟩

theorem HasApart.of_isRotated {R : α → α → Prop} (hR : ∀ a b, R a b → R b a) {l l' : List α}
    (hl : l ~r l') (h : HasApart R l') : HasApart R l := by
  obtain ⟨n, rfl⟩ := hl
  induction n with
  | zero => rwa [List.rotate_zero] at h
  | succ n ih =>
    rw [← List.rotate_rotate] at h
    exact ih (h.of_rotate_one hR)

theorem HasApart.reverse {R : α → α → Prop} (hR : ∀ a b, R a b → R b a) {l : List α}
    (h : HasApart R l) : HasApart R l.reverse := by
  obtain ⟨i, j, a, b, ha, hb, hij, hends, hab⟩ := h
  have hj := (List.getElem?_eq_some_iff.1 hb).1
  refine ⟨l.length - 1 - j, l.length - 1 - i, b, a, ?_, ?_, by omega, ?_, hR a b hab⟩
  · rwa [List.getElem?_reverse (by omega), show l.length - 1 - (l.length - 1 - j) = j by omega]
  · rwa [List.getElem?_reverse (by omega), show l.length - 1 - (l.length - 1 - i) = i by omega]
  · rw [List.length_reverse]
    omega

theorem HasApart.forall₂ {R : α → α → Prop} {S : β → β → Prop} {Q : α → β → Prop}
    (hRS : ∀ a b a' b', Q a a' → Q b b' → R a b → S a' b') {l : List α} {l' : List β}
    (hl : List.Forall₂ Q l l') (h : HasApart R l) : HasApart S l' := by
  obtain ⟨i, j, a, b, ha, hb, hij, hends, hab⟩ := h
  obtain ⟨hi, rfl⟩ := List.getElem?_eq_some_iff.1 ha
  obtain ⟨hj, rfl⟩ := List.getElem?_eq_some_iff.1 hb
  obtain ⟨hlength, hget⟩ := List.forall₂_iff_get.1 hl
  rw [hlength] at hends
  exact ⟨i, j, l'[i], l'[j], List.getElem?_eq_getElem (hlength ▸ hi),
    List.getElem?_eq_getElem (hlength ▸ hj), hij, hends,
    hRS _ _ _ _ (hget i hi (hlength ▸ hi)) (hget j hj (hlength ▸ hj)) hab⟩

end CityScene
