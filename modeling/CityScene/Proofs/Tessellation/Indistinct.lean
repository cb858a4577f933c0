import CityScene.Proofs.Tessellation.Repetitions

/-!
# Rings that count as one

Two rings are `Indistinct` if no test of `checkTopology` tells them apart: both meet themselves or
neither does, and points and other rings lie to both in one way.  The verdict on a polygon does not
change if such rings stand for one another (`checkTopology_congr`).

A ring listed from another point on is such a ring.  Edges that are no neighbours stay so, every
other test asks whether some edge or corner satisfies it or how many do, and dropping repetitions
leaves the same edges.  In exact arithmetic a ring listed in the opposite direction is one as well
(`checkTopology_turned`).
-/

namespace CityScene.Tessellation

variable {K : Type} [Scalar K]

/-- No test tells the rings apart. -/
structure Indistinct (tolerance : K) (ring ring' : List (Vec2 K)) : Prop where
  meetsItself : ringMeetsItself ring tolerance = ringMeetsItself ring' tolerance
  locate : ∀ p, locate p ring tolerance = locate p ring' tolerance
  crosses : ∀ e, ((ringEdges ring).any fun f => segmentsCross e f tolerance) =
    (ringEdges ring').any fun f => segmentsCross e f tolerance
  /-- Of corners a test is asked that gives one answer for points that are the same. -/
  corners : ∀ test : Vec2 K → Bool, (∀ p q, p.Same q → test p = test q) →
    ring.any test = ring'.any test

/-! ### Lists with the same answers -/

theorem map_eq_of_forall₂ {α β γ : Type} {R : α → β → Prop} {f : α → γ} {g : β → γ} {l : List α}
    {l' : List β} (hl : List.Forall₂ R l l') (h : ∀ a b, R a b → f a = g b) :
    l.map f = l'.map g := by
  rw [← List.forall₂_eq_eq_eq]
  exact List.rel_map (fun a b hab => h a b hab) hl

theorem any_eq_of_perm {α : Type} {l l' : List α} {test test' : α → Bool}
    (h : (l.map test).Perm (l'.map test')) : l.any test = l'.any test' := by
  have hany : (l.map test).any id = (l'.map test').any id := h.any_eq
  rwa [List.any_map, List.any_map] at hany

theorem countP_eq_of_perm {α : Type} {l l' : List α} {test test' : α → Bool}
    (h : (l.map test).Perm (l'.map test')) : l.countP test = l'.countP test' := by
  have hcount := h.countP_eq id
  rwa [List.countP_map, List.countP_map] at hcount

theorem findSome?_eq_of_forall₂ {α β γ : Type} {R : α → β → Prop} {f : α → Option γ}
    {g : β → Option γ} {l : List α} {l' : List β} (hl : List.Forall₂ R l l')
    (h : ∀ a b, R a b → f a = g b) : l.findSome? f = l'.findSome? g := by
  have hfound := congrArg (List.findSome? id) (map_eq_of_forall₂ hl h)
  rwa [List.findSome?_map, List.findSome?_map] at hfound

theorem forall₂_zipIdx {α β : Type} {R : α → β → Prop} {l : List α} {l' : List β}
    (h : List.Forall₂ R l l') (n : Nat) :
    List.Forall₂ (fun a b => R a.1 b.1 ∧ a.2 = b.2) (l.zipIdx n) (l'.zipIdx n) := by
  induction h generalizing n with
  | nil => exact .nil
  | cons hab _ ih => exact .cons ⟨hab, rfl⟩ (ih (n + 1))

theorem mem_drop_zipIdx {α : Type} {l : List α} {n : Nat} {x : α × Nat} :
    x ∈ l.zipIdx.drop n ↔ l[x.2]? = some x.1 ∧ n ≤ x.2 := by
  rw [List.mem_iff_getElem?]
  simp only [List.getElem?_drop, List.getElem?_zipIdx, Option.map_eq_some_iff, Nat.zero_add]
  constructor
  · rintro ⟨k, a, ha, rfl⟩
    exact ⟨ha, Nat.le_add_right ..⟩
  · rintro ⟨hx, hn⟩
    refine ⟨x.2 - n, x.1, ?_, ?_⟩
    · rwa [Nat.add_sub_cancel' hn]
    · rw [Nat.add_sub_cancel' hn]

/-! ### What the tests read -/

/-- Two edges of a cycle that are no neighbours meet. -/
def MeetApart (edges : List (Vec2 K × Vec2 K)) (tolerance : K) : Prop :=
  HasApart (fun e f => segmentsMeet e f tolerance = true) edges

theorem ringMeetsItself_iff (ring : List (Vec2 K)) (tolerance : K) :
    ringMeetsItself ring tolerance = true ↔ MeetApart (ringEdges ring) tolerance := by
  have hends (i j : Nat) : (!(i == 0 && j + 1 == ring.length)) = true ↔
      ¬ (i = 0 ∧ j + 1 = (ringEdges ring).length) := by
    simp [length_ringEdges, imp_iff_not_or]
  rw [ringMeetsItself, List.any_eq_true]
  simp only [List.any_eq_true, mem_drop_zipIdx, List.mem_zipIdx_iff_getElem?, Bool.and_eq_true_iff,
    hends]
  constructor
  · rintro ⟨⟨e, i⟩, he, ⟨f, j⟩, ⟨hf, hij⟩, hopen, hmeets⟩
    exact ⟨i, j, e, f, he, hf, hij, hopen, hmeets⟩
  · rintro ⟨i, j, e, f, he, hf, hij, hopen, hmeets⟩
    exact ⟨(e, i), he, (f, j), ⟨hf, hij⟩, hopen, hmeets⟩

theorem locate_congr {p p' : Vec2 K} {ring ring' : List (Vec2 K)} {tolerance : K}
    (hon : ((ringEdges ring).any fun e => onSegment p e.1 e.2 tolerance) =
      (ringEdges ring').any fun e => onSegment p' e.1 e.2 tolerance)
    (hcross : (ringEdges ring).countP (rayCrosses p) = (ringEdges ring').countP (rayCrosses p')) :
    locate p ring tolerance = locate p' ring' tolerance := by
  rw [locate, locate, hon, hcross]

theorem locate_same [CongruentScalar K] {p p' : Vec2 K} (h : p.Same p') (ring : List (Vec2 K))
    (tolerance : K) : locate p ring tolerance = locate p' ring tolerance := by
  refine locate_congr (any_eq_of_perm (.of_eq ?_)) (countP_eq_of_perm (.of_eq ?_))
  · exact List.map_congr_left fun e _ => onSegment_congr h (.refl e.1) (.refl e.2) tolerance
  · exact List.map_congr_left fun e _ => rayCrosses_congr h ⟨.refl e.1, .refl e.2⟩

theorem ringsCross_comm (a b : List (Vec2 K)) (tolerance : K) :
    ringsCross a b tolerance = ringsCross b a tolerance := by
  have hcross (a b : List (Vec2 K)) (h : ringsCross a b tolerance = true) :
      ringsCross b a tolerance = true := by
    simp only [ringsCross, List.any_eq_true] at h ⊢
    obtain ⟨e, he, f, hf, hef⟩ := h
    exact ⟨f, hf, e, he, by rwa [segmentsCross_comm]⟩
  exact Bool.eq_iff_iff.2 ⟨hcross a b, hcross b a⟩

/-! ### Rings that are indistinct -/

namespace Indistinct

variable {tolerance : K} {ring ring' ring'' : List (Vec2 K)}

theorem symm (h : Indistinct tolerance ring ring') : Indistinct tolerance ring' ring :=
  ⟨h.meetsItself.symm, fun p => (h.locate p).symm, fun e => (h.crosses e).symm,
    fun test htest => (h.corners test htest).symm⟩

theorem trans (h : Indistinct tolerance ring ring') (h' : Indistinct tolerance ring' ring'') :
    Indistinct tolerance ring ring'' :=
  ⟨h.meetsItself.trans h'.meetsItself, fun p => (h.locate p).trans (h'.locate p),
    fun e => (h.crosses e).trans (h'.crosses e),
    fun test htest => (h.corners test htest).trans (h'.corners test htest)⟩

/-- The edges of the rings answer alike, if perhaps in another order, and so do the corners. -/
theorem of_perm
    (hmeets : MeetApart (ringEdges ring) tolerance ↔ MeetApart (ringEdges ring') tolerance)
    (hon : ∀ p, ((ringEdges ring).map fun e => onSegment p e.1 e.2 tolerance).Perm
      ((ringEdges ring').map fun e => onSegment p e.1 e.2 tolerance))
    (hrays : ∀ p, ((ringEdges ring).map (rayCrosses p)).Perm
      ((ringEdges ring').map (rayCrosses p)))
    (hcrosses : ∀ e, ((ringEdges ring).map fun f => segmentsCross e f tolerance).Perm
      ((ringEdges ring').map fun f => segmentsCross e f tolerance))
    (hcorners : ∀ test : Vec2 K → Bool, (∀ p q, p.Same q → test p = test q) →
      (ring.map test).Perm (ring'.map test)) :
    Indistinct tolerance ring ring' where
  meetsItself := by rw [Bool.eq_iff_iff, ringMeetsItself_iff, ringMeetsItself_iff, hmeets]
  locate p := locate_congr (any_eq_of_perm (hon p)) (countP_eq_of_perm (hrays p))
  crosses e := any_eq_of_perm (hcrosses e)
  corners test htest := any_eq_of_perm (hcorners test htest)

theorem segmentsMeet_symm (e f : Vec2 K × Vec2 K) (h : segmentsMeet e f tolerance = true) :
    segmentsMeet f e tolerance = true := by
  rwa [segmentsMeet_comm]

/-- It does not matter from which of its points on a ring is listed. -/
theorem of_isRotated (tolerance : K) (h : ring ~r ring') : Indistinct tolerance ring ring' := by
  have hedges := isRotated_ringEdges h
  refine of_perm ⟨HasApart.of_isRotated segmentsMeet_symm hedges.symm,
    HasApart.of_isRotated segmentsMeet_symm hedges⟩ ?_ ?_ ?_ ?_
  · exact fun p => hedges.perm.map _
  · exact fun p => hedges.perm.map _
  · exact fun e => hedges.perm.map _
  · exact fun test _ => h.perm.map test

/-- The points of a ring can be replaced by points that are the same. -/
theorem of_same [CongruentScalar K] (tolerance : K) (h : List.Forall₂ Vec2.Same ring ring') :
    Indistinct tolerance ring ring' := by
  have hedges := sameEdge_ringEdges h
  refine of_perm ⟨?_, ?_⟩ (fun p => .of_eq ?_) (fun p => .of_eq ?_) (fun e => .of_eq ?_)
    (fun test htest => .of_eq (map_eq_of_forall₂ h htest))
  · refine HasApart.forall₂ (fun e f e' f' he hf hmeets => ?_) hedges
    rwa [← segmentsMeet_congr he hf]
  · refine HasApart.forall₂ (fun e f e' f' he hf hmeets => ?_) hedges.flip
    rwa [segmentsMeet_congr he hf]
  · exact map_eq_of_forall₂ hedges fun e e' he => onSegment_congr (.refl p) he.1 he.2 tolerance
  · exact map_eq_of_forall₂ hedges fun e e' he => rayCrosses_congr (.refl p) he
  · exact map_eq_of_forall₂ hedges fun f f' hf =>
      segmentsCross_congr ⟨.refl e.1, .refl e.2⟩ hf tolerance

/-- In exact arithmetic it does not matter in which direction a ring is listed. -/
theorem of_reverse {tolerance : ℝ} (h : 0 ≤ tolerance) (ring : List (Vec2 ℝ)) :
    Indistinct tolerance ring ring.reverse := by
  have hperm (test : Vec2 ℝ × Vec2 ℝ → Bool) (htest : ∀ e, test e.swap = test e) :
      ((ringEdges ring).map test).Perm ((ringEdges ring.reverse).map test) := by
    calc (ringEdges ring).map test
        = ((ringEdges ring).map Prod.swap).map test := by
          rw [List.map_map]
          exact List.map_congr_left fun e _ => (htest e).symm
      List.Perm _ (((ringEdges ring).map Prod.swap).reverse.map test) :=
          (List.reverse_perm _).symm.map test
      List.Perm _ ((ringEdges ring.reverse).map test) :=
          (isRotated_ringEdges_reverse ring).symm.perm.map test
  have hmeets (ring : List (Vec2 ℝ)) (hring : MeetApart (ringEdges ring) tolerance) :
      MeetApart (ringEdges ring.reverse) tolerance := by
    refine HasApart.of_isRotated segmentsMeet_symm (isRotated_ringEdges_reverse ring)
      (.reverse segmentsMeet_symm ?_)
    have hswap : List.Forall₂ (fun e e' => e.swap = e') (ringEdges ring)
        ((ringEdges ring).map Prod.swap) :=
      List.forall₂_map_right_iff.2 (List.forall₂_same.2 fun e _ => rfl)
    refine HasApart.forall₂ ?_ hswap hring
    rintro e f _ _ rfl rfl hef
    rwa [segmentsMeet_swap h, segmentsMeet_comm, segmentsMeet_swap h, segmentsMeet_comm]
  refine of_perm ⟨hmeets ring, fun hreverse => ?_⟩ (fun p => hperm _ fun e => ?_)
    (fun p => hperm _ (rayCrosses_swap p)) (fun e => hperm _ (segmentsCross_swap h e))
    (fun test _ => (List.reverse_perm ring).symm.map test)
  · rw [← List.reverse_reverse ring]
    exact hmeets ring.reverse hreverse
  · exact onSegment_swap h p e.1 e.2

/-! ### Verdicts -/

variable {a a' b b' exterior exterior' : List (Vec2 K)}

theorem ringsCross_right (h : Indistinct tolerance b b') (a : List (Vec2 K)) :
    ringsCross a b tolerance = ringsCross a b' tolerance := by
  rw [Tessellation.ringsCross, Tessellation.ringsCross]
  simp only [h.crosses]

theorem ringsCross_eq (ha : Indistinct tolerance a a') (hb : Indistinct tolerance b b') :
    ringsCross a b tolerance = ringsCross a' b' tolerance := by
  rw [hb.ringsCross_right, ringsCross_comm, ha.ringsCross_right, ringsCross_comm]

variable [CongruentScalar K]

theorem any_locate (ha : Indistinct tolerance a a') (hb : Indistinct tolerance b b')
    (test : Location → Bool) :
    (a.any fun p => test (Tessellation.locate p b tolerance)) =
      a'.any fun p => test (Tessellation.locate p b' tolerance) := by
  simp only [hb.locate]
  exact ha.corners _ fun p q h => by rw [locate_same h]

theorem all_locate (ha : Indistinct tolerance a a') (hb : Indistinct tolerance b b')
    (test : Location → Bool) :
    (a.all fun p => test (Tessellation.locate p b tolerance)) =
      a'.all fun p => test (Tessellation.locate p b' tolerance) := by
  rw [List.all_eq_not_any_not, List.all_eq_not_any_not, ha.any_locate hb fun l => !test l]

theorem holeFault?_eq (hexterior : Indistinct tolerance exterior exterior')
    (h : Indistinct tolerance ring ring') (index : Nat) :
    holeFault? exterior ring index tolerance = holeFault? exterior' ring' index tolerance := by
  simp only [holeFault?, List.all_map, List.contains_eq_any_beq, List.any_map, h.meetsItself,
    h.ringsCross_eq hexterior, Function.comp_def]
  rw [h.all_locate hexterior (· == .boundary), h.any_locate hexterior (.outside == ·)]

theorem holesOverlap_eq (ha : Indistinct tolerance a a') (hb : Indistinct tolerance b b') :
    holesOverlap a b tolerance = holesOverlap a' b' tolerance := by
  rw [holesOverlap, holesOverlap, ha.ringsCross_eq hb, ha.any_locate hb (· == .inside),
    hb.any_locate ha (· == .inside), ha.all_locate hb (· == .boundary)]

end Indistinct

variable {tolerance : K}

theorem overlapFault?_congr [CongruentScalar K] {holes holes' : List (List (Vec2 K))}
    (h : List.Forall₂ (Indistinct tolerance) holes holes') :
    overlapFault? holes tolerance = overlapFault? holes' tolerance := by
  have hnumbered := forall₂_zipIdx h 0
  refine findSome?_eq_of_forall₂ hnumbered ?_
  rintro ⟨a, i⟩ ⟨a', _⟩ ⟨ha, rfl⟩
  refine findSome?_eq_of_forall₂ (List.forall₂_drop (i + 1) hnumbered) ?_
  rintro ⟨b, j⟩ ⟨b', _⟩ ⟨hb, rfl⟩
  dsimp only
  rw [Indistinct.holesOverlap_eq ha hb]

/-- **Rings that are indistinct once repetitions are dropped** get the same verdict. -/
theorem checkTopology_congr [CongruentScalar K] {exterior exterior' : List (Vec2 K)}
    {holes holes' : List (List (Vec2 K))}
    (hexterior : Indistinct tolerance (dedupRing exterior) (dedupRing exterior'))
    (hholes : List.Forall₂ (fun hole hole' =>
      Indistinct tolerance (dedupRing hole) (dedupRing hole')) holes holes') :
    checkTopology exterior holes tolerance = checkTopology exterior' holes' tolerance := by
  have hdeduped : List.Forall₂ (Indistinct tolerance) (holes.map dedupRing)
      (holes'.map dedupRing) :=
    List.forall₂_map_left_iff.2 (List.forall₂_map_right_iff.2 hholes)
  rw [checkTopology, checkTopology, hexterior.meetsItself]
  dsimp only
  congr 3
  · refine findSome?_eq_of_forall₂ (forall₂_zipIdx hdeduped 0) ?_
    rintro ⟨hole, i⟩ ⟨hole', _⟩ ⟨hhole, rfl⟩
    exact hexterior.holeFault?_eq hhole i
  · exact overlapFault?_congr hdeduped

/-! ### The same ring listed otherwise -/

/-- **A ring that is listed from another of its points on** keeps its edges without repetitions. -/
theorem Indistinct.dedupRing_of_isRotated [CongruentScalar K] (tolerance : K)
    {ring ring' : List (Vec2 K)} (h : ring ~r ring') :
    Indistinct tolerance (dedupRing ring) (dedupRing ring') := by
  by_cases hring : Collapses ring
  · exact .of_same tolerance (hring.same_dedupRing h.perm)
  · have hring' : ¬ Collapses ring' := fun hring' => hring (hring'.of_perm h.perm.symm)
    have hrotated := of_isRotated tolerance (isRotated_corners h)
    exact ((of_same tolerance (same_dedupRing hring)).trans hrotated).trans
      (of_same tolerance (same_dedupRing hring')).symm

theorem Indistinct.dedupRing_reverse {tolerance : ℝ} (h : 0 ≤ tolerance) (ring : List (Vec2 ℝ)) :
    Indistinct tolerance (dedupRing ring) (dedupRing ring.reverse) :=
  (of_reverse h (dedupRing ring)).trans (of_isRotated _ (isRotated_dedupRing_reverse ring).symm)

/-- The same ring from another of its points on, in either direction. -/
def Turned {α : Type} (ring ring' : List α) : Prop :=
  ring ~r ring' ∨ ring.reverse ~r ring'

theorem Indistinct.dedupRing_of_turned {tolerance : ℝ} (h : 0 ≤ tolerance)
    {ring ring' : List (Vec2 ℝ)} (hring : Turned ring ring') :
    Indistinct tolerance (dedupRing ring) (dedupRing ring') := by
  obtain hring | hring := hring
  · exact dedupRing_of_isRotated tolerance hring
  · exact (dedupRing_reverse h ring).trans (dedupRing_of_isRotated tolerance hring)

/-- **The verdict on a polygon does not depend on how its rings are listed**: with floats, not on
the points from which they are listed, and in exact arithmetic not on their directions either. -/
theorem checkTopology_turned :
    (∀ (exterior exterior' : List (Vec2 Float)) (holes holes' : List (List (Vec2 Float)))
      (tolerance : Float), exterior ~r exterior' → List.Forall₂ List.IsRotated holes holes' →
      checkTopology exterior' holes' tolerance = checkTopology exterior holes tolerance) ∧
    ∀ (exterior exterior' : List (Vec2 ℝ)) (holes holes' : List (List (Vec2 ℝ))) (tolerance : ℝ),
      0 ≤ tolerance → Turned exterior exterior' → List.Forall₂ Turned holes holes' →
      checkTopology exterior' holes' tolerance = checkTopology exterior holes tolerance := by
  constructor
  · intro exterior exterior' holes holes' tolerance hexterior hholes
    exact (checkTopology_congr (.dedupRing_of_isRotated tolerance hexterior)
      (hholes.imp fun _ _ hhole => .dedupRing_of_isRotated tolerance hhole)).symm
  · intro exterior exterior' holes holes' tolerance h hexterior hholes
    exact (checkTopology_congr (.dedupRing_of_turned h hexterior)
      (hholes.imp fun _ _ hhole => .dedupRing_of_turned h hhole)).symm

/-- A triangle of floats that begins with two different zeros, and a hole beside it; and, in exact
arithmetic, a ring that crosses itself. -/
theorem checkTopology_listedOtherwise :
    checkTopology ([⟨-0, 0⟩, ⟨4, 0⟩, ⟨0, 3⟩, ⟨0, 0⟩] : List (Vec2 Float))
      [[⟨6, 5⟩, ⟨6, 6⟩, ⟨5, 5⟩]] 1e-9 = .error (.holeOutsideExterior 0) ∧
    checkTopology ([⟨0, 4⟩, ⟨4, 0⟩, ⟨4, 4⟩, ⟨0, 0⟩] : List (Vec2 ℝ)) [] 0 =
      .error (.selfIntersection 0) := by
  obtain ⟨hrotated, hturned⟩ := checkTopology_turned
  have hfloat : checkTopology ([⟨0, 0⟩, ⟨-0, 0⟩, ⟨4, 0⟩, ⟨0, 3⟩] : List (Vec2 Float))
      [[⟨5, 5⟩, ⟨6, 5⟩, ⟨6, 6⟩]] 1e-9 = .error (.holeOutsideExterior 0) := by
    decide +kernel
  have hexact : checkTopology ([⟨0, 0⟩, ⟨4, 4⟩, ⟨4, 0⟩, ⟨0, 4⟩] : List (Vec2 ℝ)) [] 0 =
      .error (.selfIntersection 0) := by
    norm_num [checkTopology, dedupRing, dropRepeats, dropRepeats.go, dropClosing, Vec2.beq_mk,
      ringMeetsItself, ringEdges, segmentsMeet, segmentsCross, sides, sign, orientation]
  constructor
  · refine (hrotated _ _ _ _ _ ?_ ?_).trans hfloat
    · exact ⟨1, rfl⟩
    · exact .cons ⟨1, rfl⟩ .nil
  · refine (hturned _ _ _ _ _ le_rfl ?_ .nil).trans hexact
    exact .inr ⟨0, rfl⟩

end CityScene.Tessellation
