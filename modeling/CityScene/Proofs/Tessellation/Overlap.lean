import CityScene.Proofs.Tessellation.Indistinct

/-!
# The order of the holes

A polygon is accepted iff its exterior does not meet itself, every hole `Fits` the exterior, and no
two holes overlap (`checkTopology_eq_ok_iff`).  Of all this only the test of two holes could depend
on the order in which they are listed.  It does so in one case: it asks whether the corners of the
first hole all lie on the second, and not the other way round.  A hole that is `Inscribed` in the
other one therefore counts as overlapping it only if it is listed first (`inscribed_iff`), and
without such a pair the order does not matter (`checkTopology_perm`).
-/

namespace CityScene.Tessellation

variable {K : Type} [Scalar K] {tolerance : K}

/-- The hole lies in the exterior and does not retrace it. -/
structure Fits (exterior hole : List (Vec2 K)) (tolerance : K) : Prop where
  simple : ringMeetsItself hole tolerance = false
  leaves : ∃ p ∈ hole, locate p exterior tolerance ≠ .boundary
  within : ∀ p ∈ hole, locate p exterior tolerance ≠ .outside
  uncrossed : ringsCross hole exterior tolerance = false

/-- All corners of the first ring lie on the second, which passes it by on the outside. -/
structure Inscribed (a b : List (Vec2 K)) (tolerance : K) : Prop where
  touches : ∀ p ∈ a, locate p b tolerance = .boundary
  exceeds : ∃ p ∈ b, locate p a tolerance = .outside
  avoids : ∀ p ∈ b, locate p a tolerance ≠ .inside
  uncrossed : ringsCross a b tolerance = false

/-! ### Acceptance -/

theorem holeFault?_eq_none_iff {exterior hole : List (Vec2 K)} {index : Nat} :
    holeFault? exterior hole index tolerance = none ↔ Fits exterior hole tolerance := by
  have hretraces : (hole.map (locate · exterior tolerance)).all (· == .boundary) = true ↔
      ∀ p ∈ hole, locate p exterior tolerance = .boundary := by
    simp
  have houtside : ((hole.map (locate · exterior tolerance)).contains .outside ||
      ringsCross hole exterior tolerance) = true ↔
      (∃ p ∈ hole, locate p exterior tolerance = .outside) ∨
        ringsCross hole exterior tolerance = true := by
    simp
  simp only [holeFault?, hretraces, houtside]
  constructor
  · intro h
    split at h
    · cases h
    next hsimple =>
    split at h
    · cases h
    next hleaves =>
    split at h
    · cases h
    next hwithin =>
    push Not at hleaves hwithin
    exact ⟨Bool.eq_false_iff.2 hsimple, hleaves, hwithin.1, Bool.eq_false_iff.2 hwithin.2⟩
  · intro h
    obtain ⟨p, hp, hleaves⟩ := h.leaves
    rw [if_neg (by simp [h.simple]), if_neg fun hall => hleaves (hall p hp), if_neg]
    rintro (⟨q, hq, hqout⟩ | hcross)
    · exact h.within q hq hqout
    · rw [h.uncrossed] at hcross
      cases hcross

theorem overlapFault?_eq_none_iff {holes : List (List (Vec2 K))} :
    overlapFault? holes tolerance = none ↔
      holes.Pairwise fun a b => holesOverlap a b tolerance = false := by
  simp only [overlapFault?, List.findSome?_eq_none_iff, mem_drop_zipIdx,
    List.mem_zipIdx_iff_getElem?, List.pairwise_iff_getElem]
  constructor
  · intro h i j hi hj hij
    have hpair := h (holes[i], i) (List.getElem?_eq_getElem hi) (holes[j], j)
      ⟨List.getElem?_eq_getElem hj, hij⟩
    by_contra hoverlap
    rw [if_pos (Bool.eq_true_of_not_eq_false hoverlap)] at hpair
    cases hpair
  · rintro h ⟨a, i⟩ ha ⟨b, j⟩ ⟨hb, hij⟩
    dsimp only at ha hb hij ⊢
    obtain ⟨hi, rfl⟩ := List.getElem?_eq_some_iff.1 ha
    obtain ⟨hj, rfl⟩ := List.getElem?_eq_some_iff.1 hb
    exact if_neg (by simp [h i j hi hj hij])

theorem checkTopology_eq_ok_iff {exterior : List (Vec2 K)} {holes : List (List (Vec2 K))} :
    checkTopology exterior holes tolerance = .ok () ↔
      ringMeetsItself (dedupRing exterior) tolerance = false ∧
      (∀ hole ∈ holes, Fits (dedupRing exterior) (dedupRing hole) tolerance) ∧
      holes.Pairwise fun a b => holesOverlap (dedupRing a) (dedupRing b) tolerance = false := by
  have hfits : (∀ x ∈ (holes.map dedupRing).zipIdx,
      holeFault? (dedupRing exterior) x.1 x.2 tolerance = none) ↔
      ∀ hole ∈ holes, Fits (dedupRing exterior) (dedupRing hole) tolerance := by
    simp only [holeFault?_eq_none_iff]
    constructor
    · intro h hole hhole
      obtain ⟨i, hi⟩ := List.mem_iff_getElem?.1 (List.mem_map_of_mem hhole)
      exact h (dedupRing hole, i) (List.mem_zipIdx_iff_getElem?.2 hi)
    · intro h x hx
      obtain ⟨hole, hhole, heq⟩ := List.mem_map.1
        (List.mem_of_getElem? (List.mem_zipIdx_iff_getElem?.1 hx))
      rw [← heq]
      exact h hole hhole
  have hoverlaps : overlapFault? (holes.map dedupRing) tolerance = none ↔
      holes.Pairwise fun a b => holesOverlap (dedupRing a) (dedupRing b) tolerance = false :=
    overlapFault?_eq_none_iff.trans List.pairwise_map
  rw [← hfits, ← hoverlaps, checkTopology]
  dsimp only
  by_cases hmeets : ringMeetsItself (dedupRing exterior) tolerance = true
  · simp [hmeets]
  · rw [if_neg hmeets, and_iff_right (Bool.eq_false_iff.2 hmeets)]
    split
    · next fault hfault =>
      refine iff_of_false (fun h => by cases h) fun h => ?_
      rw [h.2, Option.or_none, List.findSome?_eq_none_iff.2 h.1] at hfault
      cases hfault
    · next hnone =>
      obtain ⟨hholes, hpairs⟩ := Option.or_eq_none_iff.1 hnone
      exact iff_of_true rfl ⟨List.findSome?_eq_none_iff.1 hholes, hpairs⟩

/-! ### Two holes in either order -/

theorem holesOverlap_iff {a b : List (Vec2 K)} :
    holesOverlap a b tolerance = true ↔ ringsCross a b tolerance = true ∨
      (∃ p ∈ a, locate p b tolerance = .inside) ∨ (∃ p ∈ b, locate p a tolerance = .inside) ∨
      ∀ p ∈ a, locate p b tolerance = .boundary := by
  simp only [holesOverlap, Bool.or_eq_true, List.any_eq_true, List.all_eq_true, beq_iff_eq,
    or_assoc]

/-- **Two holes overlap in one order and not in the other** iff the first is inscribed. -/
theorem inscribed_iff {a b : List (Vec2 K)} :
    Inscribed a b tolerance ↔
      holesOverlap a b tolerance = true ∧ holesOverlap b a tolerance = false := by
  rw [← Bool.not_eq_true, holesOverlap_iff, holesOverlap_iff, ringsCross_comm b a]
  constructor
  · intro h
    refine ⟨.inr (.inr (.inr h.touches)), ?_⟩
    rintro (hcross | ⟨p, hp, hin⟩ | ⟨p, hp, hin⟩ | hall)
    · exact absurd hcross (by simp [h.uncrossed])
    · exact h.avoids p hp hin
    · exact absurd (h.touches p hp) (by simp [hin])
    · obtain ⟨p, hp, hout⟩ := h.exceeds
      exact absurd (hall p hp) (by simp [hout])
  · rintro ⟨h, h'⟩
    push Not at h'
    obtain ⟨huncrossed, havoids, haway, p, hp, hleaves⟩ := h'
    obtain hcross | ⟨p, hp, hin⟩ | ⟨p, hp, hin⟩ | htouches := h
    · exact absurd hcross huncrossed
    · exact absurd hin (haway p hp)
    · exact absurd hin (havoids p hp)
    · refine ⟨htouches, ⟨p, hp, ?_⟩, havoids, Bool.eq_false_iff.2 huncrossed⟩
      cases hlocation : locate p a tolerance with
      | inside => exact absurd hlocation (havoids p hp)
      | outside => rfl
      | boundary => exact absurd hlocation hleaves

theorem holesOverlap_comm {a b : List (Vec2 K)} (hab : ¬ Inscribed a b tolerance)
    (hba : ¬ Inscribed b a tolerance) :
    holesOverlap a b tolerance = holesOverlap b a tolerance := by
  have hoverlap {a b : List (Vec2 K)} (hab : ¬ Inscribed a b tolerance)
      (h : holesOverlap a b tolerance = true) : holesOverlap b a tolerance = true := by
    by_contra h'
    exact hab (inscribed_iff.2 ⟨h, Bool.eq_false_iff.2 h'⟩)
  exact Bool.eq_iff_iff.2 ⟨hoverlap hab, hoverlap hba⟩

theorem pairwise_perm_of_mem {α : Type} {R : α → α → Prop} {l l' : List α} (hperm : l'.Perm l)
    (hsymm : ∀ a ∈ l, ∀ b ∈ l, R a b → R b a) : l'.Pairwise R ↔ l.Pairwise R := by
  calc l'.Pairwise R
      ↔ l'.Pairwise fun a b => a ∈ l ∧ b ∈ l ∧ R a b :=
        List.Pairwise.iff_of_mem fun ha hb =>
          ⟨fun hab => ⟨hperm.mem_iff.1 ha, hperm.mem_iff.1 hb, hab⟩, fun hab => hab.2.2⟩
    _ ↔ l.Pairwise fun a b => a ∈ l ∧ b ∈ l ∧ R a b :=
        hperm.pairwise_iff fun ⟨ha, hb, hab⟩ => ⟨hb, ha, hsymm _ ha _ hb hab⟩
    _ ↔ l.Pairwise R := List.Pairwise.and_mem.symm

/-- **The order of the holes does not matter** for whether a polygon is accepted, nor which of two
holes is asked whether it overlaps the other, as long as none is inscribed in another. -/
theorem checkTopology_perm {exterior : List (Vec2 K)} {holes holes' : List (List (Vec2 K))}
    (hperm : holes'.Perm holes)
    (hinscribed : ∀ a ∈ holes, ∀ b ∈ holes, ¬ Inscribed (dedupRing a) (dedupRing b) tolerance) :
    (checkTopology exterior holes' tolerance = .ok () ↔
      checkTopology exterior holes tolerance = .ok ()) ∧
    ∀ a ∈ holes, ∀ b ∈ holes, holesOverlap (dedupRing a) (dedupRing b) tolerance =
      holesOverlap (dedupRing b) (dedupRing a) tolerance := by
  have hcomm : ∀ a ∈ holes, ∀ b ∈ holes, holesOverlap (dedupRing a) (dedupRing b) tolerance =
      holesOverlap (dedupRing b) (dedupRing a) tolerance := fun a ha b hb =>
    holesOverlap_comm (hinscribed a ha b hb) (hinscribed b hb a ha)
  refine ⟨?_, hcomm⟩
  have hpairs : (holes'.Pairwise fun a b =>
      holesOverlap (dedupRing a) (dedupRing b) tolerance = false) ↔
      holes.Pairwise fun a b => holesOverlap (dedupRing a) (dedupRing b) tolerance = false :=
    pairwise_perm_of_mem hperm fun a ha b hb hab => (hcomm a ha b hb).symm.trans hab
  rw [checkTopology_eq_ok_iff, checkTopology_eq_ok_iff, hpairs]
  simp only [hperm.mem_iff]

/-! ### Triangles in a triangle -/

/-- A point with whole coordinates. -/
def gridPoint (x y : Int) : Vec2 ℝ :=
  ⟨x, y⟩

/-- The exterior of the examples. -/
def ground : List (Vec2 ℝ) :=
  [gridPoint (-10) (-10), gridPoint 20 (-10), gridPoint (-10) 20]

def court : List (Vec2 ℝ) :=
  [gridPoint 0 0, gridPoint 4 0, gridPoint 0 4]

/-- The midpoints of the sides of the court. -/
def midpoints : List (Vec2 ℝ) :=
  [gridPoint 2 0, gridPoint 2 2, gridPoint 0 2]

/-- A triangle beside the court. -/
def pond : List (Vec2 ℝ) :=
  [gridPoint (-4) (-4), gridPoint (-2) (-4), gridPoint (-4) (-2)]

theorem dedupRing_triangle {p q r : Vec2 K} (hq : (q == p) = false) (hr : (r == q) = false)
    (hp : (p == r) = false) : dedupRing [p, q, r] = [p, q, r] := by
  simp [dedupRing, dropRepeats, dropRepeats.go, dropClosing, hq, hr, hp]

theorem dedupRing_triangles : dedupRing ground = ground ∧ dedupRing court = court ∧
    dedupRing midpoints = midpoints ∧ dedupRing pond = pond := by
  refine ⟨?_, ?_, ?_, ?_⟩ <;> apply dedupRing_triangle <;> norm_num [gridPoint, Vec2.beq_mk]

theorem ringMeetsItself_ground : ringMeetsItself ground 0 = false := by
  norm_num [ringMeetsItself, ringEdges, ground, gridPoint]

theorem fits_triangles :
    Fits ground court 0 ∧ Fits ground midpoints 0 ∧ Fits ground pond 0 := by
  refine ⟨?_, ?_, ?_⟩ <;> constructor <;>
    norm_num [ground, court, midpoints, pond, gridPoint, ringMeetsItself, locate, ringsCross,
      ringEdges, onSegment, orientation, sign, rayCrosses, segmentsCross, sides] <;>
    decide

theorem holesOverlap_pond :
    holesOverlap court pond 0 = false ∧ holesOverlap pond court 0 = false := by
  refine ⟨?_, ?_⟩ <;>
    (norm_num [court, pond, gridPoint, holesOverlap, locate, ringsCross, ringEdges, onSegment,
      orientation, sign, rayCrosses, segmentsCross, sides]
     decide)

theorem inscribed_midpoints : Inscribed midpoints court 0 := by
  constructor <;>
    norm_num [court, midpoints, gridPoint, locate, ringsCross, ringEdges, onSegment, orientation,
      sign, rayCrosses, segmentsCross, sides]
  decide

/-- Court and pond can be listed in either order. -/
theorem checkTopology_pondFirst :
    (∀ a ∈ [court, pond], ∀ b ∈ [court, pond], ¬ Inscribed (dedupRing a) (dedupRing b) 0) ∧
    checkTopology ground [pond, court] 0 = .ok () := by
  obtain ⟨hground, hcourt, -, hpond⟩ := dedupRing_triangles
  obtain ⟨hcourtFits, -, hpondFits⟩ := fits_triangles
  have hinscribed : ∀ a ∈ [court, pond], ∀ b ∈ [court, pond],
      ¬ Inscribed (dedupRing a) (dedupRing b) 0 := by
    simp [hcourt, hpond, inscribed_iff, holesOverlap_pond]
  have haccepted : checkTopology ground [court, pond] 0 = .ok () := by
    rw [checkTopology_eq_ok_iff]
    simp [hground, hcourt, hpond, ringMeetsItself_ground, hcourtFits, hpondFits,
      holesOverlap_pond]
  exact ⟨hinscribed, (checkTopology_perm (.swap court pond []) hinscribed).1.2 haccepted⟩

/-- The triangle of the midpoints overlaps the court only if it is listed first. -/
theorem checkTopology_midpointsFirst : checkTopology ground [court, midpoints] 0 = .ok () ∧
    checkTopology ground [midpoints, court] 0 = .error (.overlappingHoles 0 1) := by
  obtain ⟨hground, hcourt, hmidpoints, -⟩ := dedupRing_triangles
  obtain ⟨hcourtFits, hmidpointsFit, -⟩ := fits_triangles
  obtain ⟨hoverlap, hapart⟩ := inscribed_iff.1 inscribed_midpoints
  constructor
  · rw [checkTopology_eq_ok_iff]
    simp [hground, hcourt, hmidpoints, ringMeetsItself_ground, hcourtFits, hmidpointsFit, hapart]
  · simp [checkTopology, hground, hcourt, hmidpoints, ringMeetsItself_ground,
      holeFault?_eq_none_iff.2 hcourtFits, holeFault?_eq_none_iff.2 hmidpointsFit, overlapFault?,
      hoverlap]

end CityScene.Tessellation
