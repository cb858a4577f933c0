import CityScene.Proofs.Space.Union
import CityScene.Proofs.Tessellation.Indistinct

/-!
# Neighbours in rings without repetitions

What is left of a ring when its repetitions are dropped are points of the ring in their order
(`dedupRing_sublist`), and every point of the ring equals one of them.  Neighbours differ, the last
and the first point among them, unless a single point is left (`hasLength_ringEdges_dedupRing_iff`).
So nothing is left to drop from it (`dedupRing_dedupRing`), and rings are checked for what they are
without repetitions (`checkTopology_dedupRing`).

A ring that is listed from another point on is left with the same cycle of points, up to the zeros
among their coordinates: of equal points the first one stays, and which one that is depends on where
the list starts (`dedupRing_rotate`).
-/

namespace CityScene.Tessellation

variable {K : Type} [Scalar K]

/-! ### Points that are left -/

theorem dropRepeats_sublist (ring : List (Vec2 K)) : (dropRepeats ring).Sublist ring := by
  cases ring with
  | nil => exact .slnil
  | cons p rest =>
    rw [dropRepeats, cons_go]
    exact List.destutter'_sublist ..

theorem dedupRing_sublist (ring : List (Vec2 K)) : (dedupRing ring).Sublist ring := by
  cases ring with
  | nil => exact .slnil
  | cons p rest =>
    rw [dedupRing_cons]
    exact ((List.rdropWhile_prefix ..).sublist.cons_cons p).trans (dropRepeats_sublist (p :: rest))

/-- A point that is dropped equals the one kept last. -/
theorem exists_beq_cons_go {kept p : Vec2 K} {l : List (Vec2 K)} (hp : p ∈ l)
    (hself : (p == p) = true) : ∃ q ∈ kept :: dropRepeats.go kept l, (p == q) = true := by
  induction l generalizing kept with
  | nil => cases hp
  | cons r l ih =>
    rw [dropRepeats.go]
    split
    · next hrepeats =>
      obtain rfl | hp := List.mem_cons.1 hp
      · exact ⟨kept, List.mem_cons_self, hrepeats⟩
      · exact ih hp
    · obtain rfl | hp := List.mem_cons.1 hp
      · exact ⟨p, List.mem_cons_of_mem _ List.mem_cons_self, hself⟩
      · obtain ⟨q, hq, hpq⟩ : ∃ q ∈ r :: dropRepeats.go r l, (p == q) = true := ih hp
        exact ⟨q, List.mem_cons_of_mem _ hq, hpq⟩

variable [CongruentScalar K]

/-- Every point of a ring equals one that is left. -/
theorem exists_beq_dedupRing {ring : List (Vec2 K)} {p : Vec2 K} (hp : p ∈ ring)
    (hself : (p == p) = true) : ∃ q ∈ dedupRing ring, (p == q) = true := by
  obtain _ | ⟨first, rest⟩ := ring
  · cases hp
  rw [dedupRing_cons]
  obtain ⟨q, hq, hpq⟩ : ∃ q ∈ first :: dropRepeats.go first rest, (p == q) = true := by
    obtain rfl | hp := List.mem_cons.1 hp
    · exact ⟨p, List.mem_cons_self, hself⟩
    · exact exists_beq_cons_go hp hself
  obtain rfl | hq := List.mem_cons.1 hq
  · exact ⟨q, List.mem_cons_self, hpq⟩
  have hsplit : (dropRepeats.go first rest).rdropWhile (first == ·) ++
      (dropRepeats.go first rest).rtakeWhile (first == ·) = dropRepeats.go first rest :=
    List.rdropWhile_append_rtakeWhile
  rw [← hsplit] at hq
  obtain hq | hq := List.mem_append.1 hq
  · exact ⟨q, List.mem_cons_of_mem _ hq, hpq⟩
  · -- points at the end that are dropped equal the first one
    refine ⟨first, List.mem_cons_self, ?_⟩
    rwa [Vec2.Same.beq_eq (.refl p) (.of_beq (List.mem_rtakeWhile_imp hq))]

/-! ### Neighbours -/

/-- The edges that are left have a length, unless the ring collapses. -/
theorem hasLength_of_mem_ringEdges {ring : List (Vec2 K)} (h : ¬ Collapses ring)
    {e : Vec2 K × Vec2 K} (he : e ∈ ringEdges (dedupRing ring)) : hasLength e = true := by
  have hlengths : (ringEdges (dedupRing ring)).map hasLength =
      ((ringEdges ring).filter hasLength).map hasLength :=
    map_eq_of_forall₂ (sameEdge_ringEdges_dedupRing h) fun _ _ hsame =>
      congrArg (!·) (Vec2.Same.beq_eq hsame.1 hsame.2)
  have hmem : hasLength e ∈ (ringEdges (dedupRing ring)).map hasLength := List.mem_map_of_mem he
  rw [hlengths] at hmem
  obtain ⟨f, hf, hlength⟩ := List.mem_map.1 hmem
  rw [← hlength]
  exact (List.mem_filter.1 hf).2

/-- **Neighbours differ** in what is left of a ring, unless a single point is left. -/
theorem hasLength_ringEdges_dedupRing_iff {ring : List (Vec2 K)}
    (hself : ∀ p ∈ ring, (p == p) = true) :
    (∀ e ∈ ringEdges (dedupRing ring), hasLength e = true) ↔ (dedupRing ring).length ≠ 1 := by
  constructor
  · intro h hone
    obtain ⟨p, hp⟩ := List.length_eq_one_iff.1 hone
    have hpself := hself p ((dedupRing_sublist ring).subset (by simp [hp]))
    have hlength := h (p, p) (by simp [hp, ringEdges])
    simp [hasLength, hpself] at hlength
  · intro h e he
    by_cases hcollapses : Collapses ring
    · cases ring with
      | nil => cases he
      | cons p rest => exact absurd (by rw [dedupRing_of_collapses hcollapses]; rfl) h
    · exact hasLength_of_mem_ringEdges hcollapses he

/-- Nothing is dropped from a ring in which neighbours differ. -/
theorem dedupRing_eq_self {ring : List (Vec2 K)} (hring : ¬ Collapses ring)
    (h : ∀ e ∈ ringEdges ring, hasLength e = true) : dedupRing ring = ring := by
  refine (dedupRing_sublist ring).eq_of_length ?_
  calc (dedupRing ring).length
      = (ringEdges (dedupRing ring)).length := (length_ringEdges _).symm
    _ = ((ringEdges ring).filter hasLength).length :=
        (sameEdge_ringEdges_dedupRing hring).length_eq
    _ = ring.length := by rw [List.filter_eq_self.2 h, length_ringEdges]

/-- Of a ring that does not collapse at least two points are left. -/
theorem not_collapses_dedupRing {ring : List (Vec2 K)} (h : ¬ Collapses ring) :
    ¬ Collapses (dedupRing ring) := by
  obtain _ | ⟨p, rest⟩ := ring
  · exact absurd trivial h
  intro hcollapses
  rw [dedupRing_cons] at hcollapses
  have hchain := isChain_cons_go p rest
  cases hkept : dropRepeats.go p rest with
  | nil => exact h (go_eq_nil_iff.1 hkept)
  | cons q kept =>
    rw [hkept] at hcollapses hchain
    -- the first point that differs from the first of all is not dropped at the end either
    have hdiffers : ¬ (q == p) = true := (List.isChain_cons_cons.1 hchain).1
    cases hdropped : (q :: kept).rdropWhile (p == ·) with
    | nil =>
      have hq := List.rdropWhile_eq_nil_iff.1 hdropped q List.mem_cons_self
      exact hdiffers (by rwa [Vec2.Same.beq_comm])
    | cons r left =>
      have hprefix := List.rdropWhile_prefix (p == ·) (q :: kept)
      rw [hdropped] at hprefix hcollapses
      obtain rfl := (List.cons_prefix_cons.1 hprefix).1
      exact hdiffers (hcollapses r List.mem_cons_self)

/-- **Dropping repetitions once is enough.** -/
theorem dedupRing_dedupRing (ring : List (Vec2 K)) :
    dedupRing (dedupRing ring) = dedupRing ring := by
  by_cases h : Collapses ring
  · cases ring with
    | nil => rfl
    | cons p rest => rw [dedupRing_of_collapses h]; rfl
  · exact dedupRing_eq_self (not_collapses_dedupRing h) fun _ => hasLength_of_mem_ringEdges h

/-- A polygon is checked for what its rings are without repetitions. -/
theorem checkTopology_dedupRing (exterior : List (Vec2 K)) (holes : List (List (Vec2 K)))
    (tolerance : K) : checkTopology (dedupRing exterior) (holes.map dedupRing) tolerance =
      checkTopology exterior holes tolerance := by
  have hholes : (holes.map dedupRing).map dedupRing = holes.map dedupRing := by
    rw [List.map_map]
    exact List.map_congr_left fun hole _ => dedupRing_dedupRing hole
  rw [checkTopology, checkTopology, hholes, dedupRing_dedupRing]

/-! ### The ring listed from another point on -/

theorem forall₂_rotate {α β : Type} {R : α → β → Prop} {l : List α} {l' : List β}
    (h : List.Forall₂ R l l') (n : Nat) : List.Forall₂ R (l.rotate n) (l'.rotate n) := by
  rw [List.rotate_eq_drop_append_take_mod, List.rotate_eq_drop_append_take_mod, h.length_eq]
  exact List.rel_append (List.forall₂_drop _ h) (List.forall₂_take _ h)

/-- **The same cycle is left** of a ring that is listed from another point on. -/
theorem dedupRing_rotate (ring : List (Vec2 K)) (n : Nat) :
    ∃ m, List.Forall₂ Vec2.Same (dedupRing (ring.rotate n)) ((dedupRing ring).rotate m) := by
  have hperm : (ring.rotate n).Perm ring := List.rotate_perm ring n
  by_cases h : Collapses ring
  · refine ⟨0, ?_⟩
    rw [List.rotate_zero]
    exact (h.of_perm hperm.symm).same_dedupRing hperm
  · have hrotated : ¬ Collapses (ring.rotate n) := fun h' => h (h'.of_perm hperm)
    obtain ⟨m, hm⟩ := isRotated_corners (⟨n, rfl⟩ : ring ~r ring.rotate n)
    have hcorners := same_dedupRing hrotated
    rw [← hm] at hcorners
    exact ⟨m, forall₂_trans (fun _ _ _ hpq hqr => hpq.trans hqr) hcorners
      ((forall₂_rotate (same_dedupRing h) m).flip.imp fun _ _ => Vec2.Same.symm)⟩

/-! ### Finite points -/

/-- Finite floats equal themselves. -/
theorem beq_self_of_isFinite {p : Vec2 Float} (hx : Scalar.isFinite p.x = true)
    (hy : Scalar.isFinite p.y = true) : (p == p) = true := by
  have hself {a : Float} (h : Scalar.isFinite a = true) : (a == a) = true :=
    (FloatOrder.beq_iff_le a a).2
      ⟨OrderedScalar.le_self_of_isFinite h, OrderedScalar.le_self_of_isFinite h⟩
  exact Bool.and_eq_true_iff.2 ⟨hself hx, hself hy⟩

/-- **A ring of finite points without its repetitions.**  Points of the ring are left, in order, and
every point equals one of them.  Neighbours differ, around the ring, iff not just one point is left.
Nothing is left to drop.  From wherever the ring is listed, equal points are left in the same cyclic
order.  The topology of a polygon is that of what is left of its rings. -/
theorem dedupRing_of_isFinite {ring : List (Vec2 Float)}
    (h : ∀ p ∈ ring, Scalar.isFinite p.x = true ∧ Scalar.isFinite p.y = true) :
    (dedupRing ring).Sublist ring ∧
    (∀ p ∈ ring, ∃ q ∈ dedupRing ring, (p == q) = true) ∧
    ((∀ e ∈ ringEdges (dedupRing ring), (e.1 == e.2) = false) ↔ (dedupRing ring).length ≠ 1) ∧
    dedupRing (dedupRing ring) = dedupRing ring ∧
    (∀ n, ∃ m, List.Forall₂ (fun p q => (p == q) = true) (dedupRing (ring.rotate n))
      ((dedupRing ring).rotate m)) ∧
    ∀ holes tolerance, checkTopology (dedupRing ring) (holes.map dedupRing) tolerance =
      checkTopology ring holes tolerance := by
  have hself : ∀ p ∈ ring, (p == p) = true := fun p hp =>
    beq_self_of_isFinite (h p hp).1 (h p hp).2
  refine ⟨dedupRing_sublist ring, fun p hp => exists_beq_dedupRing hp (hself p hp), ?_,
    dedupRing_dedupRing ring, fun n => ?_, checkTopology_dedupRing ring⟩
  · rw [← hasLength_ringEdges_dedupRing_iff hself]
    simp [hasLength]
  · obtain ⟨m, hm⟩ := dedupRing_rotate ring n
    have hleft : ∀ p ∈ dedupRing (ring.rotate n), (p == p) = true := fun p hp =>
      hself p (List.mem_rotate.1 ((dedupRing_sublist _).subset hp))
    refine ⟨m, ((List.forall₂_and_left _ _).2 ⟨hleft, hm⟩).imp ?_⟩
    rintro p q ⟨hp, hpq⟩
    rwa [← Vec2.Same.beq_eq (.refl p) hpq]

/-- A triangle with a corner listed twice and a closing point that is written with another zero. -/
def closedTriangle : List (Vec2 Float) :=
  [⟨0, 0⟩, ⟨4, 0⟩, ⟨4, 0⟩, ⟨4, 3⟩, ⟨-0, 0⟩]

/-- Listed from its closing point on, the triangle is left with the other zero. -/
theorem dedupRing_closedTriangle :
    dedupRing closedTriangle = [⟨0, 0⟩, ⟨4, 0⟩, ⟨4, 3⟩] ∧
    dedupRing (closedTriangle.rotate 4) = [⟨-0, 0⟩, ⟨4, 0⟩, ⟨4, 3⟩] ∧
    (∀ e ∈ ringEdges (dedupRing closedTriangle), (e.1 == e.2) = false) ∧
    ∃ m, List.Forall₂ (fun p q => (p == q) = true) (dedupRing (closedTriangle.rotate 4))
      ((dedupRing closedTriangle).rotate m) := by
  have hfinite : ∀ p ∈ closedTriangle,
      Scalar.isFinite p.x = true ∧ Scalar.isFinite p.y = true := by decide +kernel
  have hleft : dedupRing closedTriangle = [⟨0, 0⟩, ⟨4, 0⟩, ⟨4, 3⟩] := by decide +kernel
  obtain ⟨-, -, hneighbours, -, hrotated, -⟩ := dedupRing_of_isFinite hfinite
  refine ⟨hleft, by decide +kernel, hneighbours.2 ?_, hrotated 4⟩
  rw [hleft]
  decide

end CityScene.Tessellation
