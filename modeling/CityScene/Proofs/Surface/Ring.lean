import CityScene.Surface.Ring

/-!
# Rings that are accepted

A ring is made of the points of a document, perhaps without the last one, and at least three of them
are different (`LinearRing.of_ofPoints_eq_ok`).  The number of different points is that of points
that can be picked such that no two of them are equal (`exists_distinct_sublist`).

One closing point is taken off, and no more.  So a ring is stored open unless the document repeats
the first point twice at the end (`LinearRing.opened_of_ofPoints`).
-/

namespace CityScene

/-- As many points as are counted can be picked so that no two are equal. -/
theorem exists_distinct_sublist {K : Type} [Scalar K] (points : List (Vec3 K)) :
    ∃ picked : List (Vec3 K), picked.Sublist points ∧ picked.length = distinctCount points ∧
      picked.Pairwise fun p q => (p == q) = false := by
  induction points with
  | nil => exact ⟨[], .slnil, rfl, .nil⟩
  | cons p rest ih =>
    obtain ⟨picked, hsublist, hlength, hpairwise⟩ := ih
    rw [distinctCount]
    split
    · exact ⟨picked, hsublist.cons p, hlength, hpairwise⟩
    · next hnew =>
      refine ⟨p :: picked, hsublist.cons_cons p, congrArg (· + 1) hlength,
        List.pairwise_cons.2 ⟨fun q hq => ?_, hpairwise⟩⟩
      refine Bool.eq_false_iff.2 fun heq => hnew (List.any_eq_true.2 ⟨q, hsublist.subset hq, ?_⟩)
      obtain ⟨hxy, hz⟩ := Bool.and_eq_true_iff.1 heq
      obtain ⟨hx, hy⟩ := Bool.and_eq_true_iff.1 hxy
      simp [Vec3.same, Scalar.same, hx, hy, hz]

namespace LinearRing

/-- What is known of an accepted ring. -/
theorem of_ofPoints_eq_ok {id : Option String} {points : List (Vec3 Float)} {requireClosed : Bool}
    {r : LinearRing} (h : ofPoints id points requireClosed = .ok r) :
    r.id = id ∧ r.points = (if isClosed points then points.dropLast else points) ∧
      3 ≤ distinctCount r.points := by
  rw [ofPoints] at h
  generalize (if isClosed points then points.dropLast else points) = kept at h
  split at h
  · cases h
  · split at h
    · cases h
    · next hcount =>
      cases h
      exact ⟨rfl, rfl, Nat.le_of_not_lt hcount⟩

theorem points_subset_of_ofPoints {id : Option String} {points : List (Vec3 Float)}
    {requireClosed : Bool} {r : LinearRing} (h : ofPoints id points requireClosed = .ok r) :
    r.points ⊆ points := by
  rw [(of_ofPoints_eq_ok h).2.1]
  split
  · exact List.dropLast_subset points
  · exact List.Subset.refl points

/-- Points are closed if the last of several repeats the first. -/
theorem isClosed_eq {points : List (Vec3 Float)} {first last : Vec3 Float}
    (hfirst : points.head? = some first) (hlast : points.getLast? = some last)
    (hlength : 1 < points.length) : isClosed points = (first == last) := by
  rw [isClosed, hfirst, hlast]
  simp [hlength]

/-- **What is stored of the points that a ring is made of.**  They are stored in order, and what is
missing at the end repeats the first point.  Three of them differ from each other.  The last differs
from the first, unless the points as they were given are still closed without the last one. -/
theorem opened_of_ofPoints {id : Option String} {points : List (Vec3 Float)} {requireClosed : Bool}
    {r : LinearRing} (h : ofPoints id points requireClosed = .ok r) :
    ∃ first last, r.points.head? = some first ∧ r.points.getLast? = some last ∧
      (∃ repeats, points = r.points ++ repeats ∧ ∀ p ∈ repeats, (first == p) = true) ∧
      (∃ picked : List (Vec3 Float), picked.Sublist r.points ∧ picked.length = 3 ∧
        picked.Pairwise fun p q => (p == q) = false) ∧
      ((first == last) = false ↔ ¬ (isClosed points = true ∧ isClosed points.dropLast = true)) := by
  obtain ⟨-, hpoints, hcount⟩ := of_ofPoints_eq_ok h
  obtain ⟨picked, hpicked, hpickedLength, hdistinct⟩ := exists_distinct_sublist r.points
  rw [← hpickedLength] at hcount
  have hlength : 1 < r.points.length :=
    Nat.lt_of_lt_of_le (by decide) (Nat.le_trans hcount hpicked.length_le)
  have hne : r.points ≠ [] := fun hnil => by simp [hnil] at hlength
  have hfirst := List.head?_eq_some_head hne
  have hlast := List.getLast?_eq_some_getLast hne
  refine ⟨_, _, hfirst, hlast, ?_, ⟨picked.take 3, (List.take_sublist ..).trans hpicked,
    List.length_take_of_le hcount, hdistinct.take⟩, ?_⟩
  · by_cases hclosed : isClosed points = true
    · rw [if_pos hclosed] at hpoints
      have hpointsNe : points ≠ [] := fun hnil => by simp [hpoints, hnil] at hlength
      refine ⟨[points.getLast hpointsNe], ?_, fun p hp => ?_⟩
      · rw [hpoints, List.dropLast_concat_getLast]
      · -- the first of the stored points is the first of those given
        have hlong : 1 < points.length := by
          rw [hpoints, List.length_dropLast] at hlength
          omega
        have hhead : points.head? = some (r.points.head hne) := by
          rw [← hfirst, hpoints, List.head?_dropLast, if_pos hlong]
        rw [List.mem_singleton.1 hp,
          ← isClosed_eq hhead (List.getLast?_eq_some_getLast hpointsNe) hlong, hclosed]
    · rw [if_neg hclosed] at hpoints
      exact ⟨[], by rw [hpoints, List.append_nil], fun _ hp => nomatch hp⟩
  · rw [← isClosed_eq hfirst hlast hlength, hpoints]
    by_cases hclosed : isClosed points = true
    · rw [if_pos hclosed, hclosed]
      simp
    · rw [if_neg hclosed]
      simp [hclosed]

/-- A triangle whose first point is repeated twice at the end. -/
def closedTwice : List (Vec3 Float) :=
  [⟨0, 0, 0⟩, ⟨4, 0, 0⟩, ⟨4, 3, 0⟩, ⟨0, 0, 0⟩, ⟨0, 0, 0⟩]

/-- With its first point repeated once, the triangle is stored open. -/
theorem opened_closedOnce :
    ∃ r first last, ofPoints none closedTwice.dropLast false = .ok r ∧
      r.points.head? = some first ∧ r.points.getLast? = some last ∧ (first == last) = false := by
  obtain ⟨r, hr⟩ : ∃ r, ofPoints none closedTwice.dropLast false = .ok r := ⟨_, rfl⟩
  obtain ⟨first, last, hfirst, hlast, -, -, hopen⟩ := opened_of_ofPoints hr
  have honce : isClosed closedTwice.dropLast.dropLast = false := by decide +kernel
  exact ⟨r, first, last, hr, hfirst, hlast, hopen.2 fun hclosed => by simp [honce] at hclosed⟩

/-- With its first point repeated twice, it is stored closed. -/
theorem stored_closedTwice :
    ∃ r first last, ofPoints none closedTwice false = .ok r ∧
      r.points.head? = some first ∧ r.points.getLast? = some last ∧ (first == last) = true :=
  ⟨⟨none, closedTwice.dropLast⟩, ⟨0, 0, 0⟩, ⟨0, 0, 0⟩, rfl, rfl, rfl, by decide +kernel⟩

end LinearRing

end CityScene
