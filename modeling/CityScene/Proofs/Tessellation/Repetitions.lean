import CityScene.Proofs.Space.Cycle
import CityScene.Proofs.Tessellation.Segments
import Mathlib.Data.List.Destutter
import Mathlib.Data.List.DropRight

/-!
# Rings without repetitions

Dropping repetitions from a ring leaves its edges that have a length, in the order in which they
stand (`sameEdge_ringEdges_dedupRing`).  Their ends are the same as before, but need not be
identical.  Of a ring whose points are all the same one point is left
(`dedupRing_of_collapses`).

So a ring keeps its corners when it is listed from another point on (`isRotated_corners`), and in
exact arithmetic it is left with the same ring when it is listed in the opposite direction
(`isRotated_dedupRing_reverse`).
-/

namespace CityScene.Tessellation

variable {K : Type} [Scalar K]

/-- The ends of the edge differ. -/
def hasLength (e : Vec2 K × Vec2 K) : Bool :=
  !(e.1 == e.2)

/-- The points of the ring are all equal to the first. -/
def Collapses : List (Vec2 K) → Prop
  | [] => True
  | p :: rest => ∀ q ∈ rest, (q == p) = true

/-- The points from which the ring goes on to a different one. -/
def corners (ring : List (Vec2 K)) : List (Vec2 K) :=
  ((ringEdges ring).filter hasLength).map Prod.fst

/-! ### Repetitions of the point before -/

theorem cons_go (kept : Vec2 K) (l : List (Vec2 K)) :
    kept :: dropRepeats.go kept l = l.destutter' (fun p q => ¬ (q == p) = true) kept := by
  induction l generalizing kept with
  | nil => rfl
  | cons p l ih =>
    rw [dropRepeats.go, List.destutter'_cons]
    split
    · exact ih kept
    · rw [ih]

/-- No point that is kept repeats the one kept before it. -/
theorem isChain_cons_go (kept : Vec2 K) (l : List (Vec2 K)) :
    (kept :: dropRepeats.go kept l).IsChain fun p q => ¬ (q == p) = true := by
  rw [cons_go]
  exact List.isChain_destutter' _ l kept

theorem go_concat (kept p : Vec2 K) (l : List (Vec2 K)) :
    dropRepeats.go kept (l ++ [p]) = dropRepeats.go kept l ++
      if p == (dropRepeats.go kept l).getLastD kept then [] else [p] := by
  induction l generalizing kept with
  | nil => simp [dropRepeats.go]
  | cons q l ih =>
    rw [List.cons_append, dropRepeats.go, dropRepeats.go]
    split
    · exact ih kept
    · rw [ih, List.cons_append, List.getLastD_cons]

theorem go_eq_nil_iff {kept : Vec2 K} {l : List (Vec2 K)} :
    dropRepeats.go kept l = [] ↔ ∀ p ∈ l, (p == kept) = true := by
  induction l with
  | nil => simp [dropRepeats.go]
  | cons p l ih =>
    rw [dropRepeats.go, List.forall_mem_cons]
    split
    · next h => rw [ih, and_iff_right h]
    · next h => exact iff_of_false (List.cons_ne_nil _ _) fun hall => h hall.1

/-! ### Repetitions of the first point -/

theorem dedupRing_cons (p : Vec2 K) (rest : List (Vec2 K)) :
    dedupRing (p :: rest) = p :: (dropRepeats.go p rest).rdropWhile (p == ·) :=
  rfl

/-- Of a ring that collapses one point is left. -/
theorem dedupRing_of_collapses {p : Vec2 K} {rest : List (Vec2 K)} (h : Collapses (p :: rest)) :
    dedupRing (p :: rest) = [p] := by
  rw [dedupRing_cons, go_eq_nil_iff.2 h]
  rfl

/-! ### Edges -/

theorem sameEdge_stepsFrom {p p' : Vec2 K} {l l' : List (Vec2 K)} (hp : p.Same p')
    (hl : List.Forall₂ Vec2.Same l l') :
    List.Forall₂ SameEdge (stepsFrom p l) (stepsFrom p' l') := by
  induction hl generalizing p p' with
  | nil => exact .nil
  | cons hq _ ih => exact .cons ⟨hp, hq⟩ (ih hq)

theorem sameEdge_ringEdges {ring ring' : List (Vec2 K)} (h : List.Forall₂ Vec2.Same ring ring') :
    List.Forall₂ SameEdge (ringEdges ring) (ringEdges ring') := by
  cases h with
  | nil => exact .nil
  | cons hp hrest =>
    rw [ringEdges_cons, ringEdges_cons]
    exact sameEdge_stepsFrom hp (List.rel_append hrest (.cons hp .nil))

theorem forall₂_trans {α : Type} {R : α → α → Prop} (hR : ∀ a b c, R a b → R b c → R a c)
    {l l' l'' : List α} (h : List.Forall₂ R l l') (h' : List.Forall₂ R l' l'') :
    List.Forall₂ R l l'' := by
  induction h generalizing l'' with
  | nil => exact h'
  | cons hab _ ih =>
    cases h' with
    | cons hbc h' => exact .cons (hR _ _ _ hab hbc) (ih h')

theorem isRotated_corners {ring ring' : List (Vec2 K)} (h : ring ~r ring') :
    corners ring ~r corners ring' :=
  (isRotated_filter (isRotated_ringEdges h) hasLength).map Prod.fst

variable [CongruentScalar K]

/-- The steps between the points that are kept are those that have a length. -/
theorem sameEdge_stepsFrom_go {kept p : Vec2 K} (hp : kept.Same p) (l : List (Vec2 K)) :
    List.Forall₂ SameEdge (stepsFrom kept (dropRepeats.go kept l))
      ((stepsFrom p l).filter hasLength) := by
  induction l generalizing kept p with
  | nil => exact .nil
  | cons q l ih =>
    have hlength : hasLength (p, q) = !(q == kept) := by
      rw [hasLength, Vec2.Same.beq_comm, Vec2.Same.beq_eq (.refl q) hp]
    rw [dropRepeats.go, stepsFrom]
    split
    · next h =>
      rw [List.filter_cons_of_neg (by simp [hlength, h])]
      exact ih (Vec2.Same.of_beq h).symm
    · next h =>
      rw [List.filter_cons_of_pos (by simp [hlength, h])]
      exact .cons ⟨hp, .refl q⟩ (ih (.refl q))

/-- **The edges that have a length are left** of a ring that does not collapse. -/
theorem sameEdge_ringEdges_dedupRing {ring : List (Vec2 K)} (h : ¬ Collapses ring) :
    List.Forall₂ SameEdge (ringEdges (dedupRing ring)) ((ringEdges ring).filter hasLength) := by
  obtain _ | ⟨p, rest⟩ := ring
  · exact absurd trivial h
  have hsteps := sameEdge_stepsFrom_go (.refl p) (rest ++ [p])
  have hchain := isChain_cons_go p rest
  rw [ringEdges_cons p rest, dedupRing_cons, ringEdges_cons]
  rw [go_concat] at hsteps
  obtain hnil | ⟨kept, last, hkept⟩ := (dropRepeats.go p rest).eq_nil_or_concat
  · exact absurd (go_eq_nil_iff.1 hnil) h
  · rw [List.concat_eq_append] at hkept
    rw [hkept] at hsteps hchain ⊢
    rw [List.getLastD_concat] at hsteps
    by_cases hlast : (p == last) = true
    · -- the last point closes the ring, and the one before it does not
      have hopen : kept.rdropWhile (p == ·) = kept := by
        obtain rfl | ⟨kept, before, rfl⟩ := kept.eq_nil_or_concat
        · rfl
        · rw [List.concat_eq_append] at hchain ⊢
          rw [List.append_assoc, ← List.cons_append] at hchain
          have hdiffer : ¬ (last == before) = true := hchain.right_of_append.rel
          refine List.rdropWhile_concat_neg _ _ _ fun hbefore => hdiffer ?_
          rwa [← Vec2.Same.beq_eq (.of_beq hlast) (.refl before)]
      have hclosing : List.Forall₂ Vec2.Same (kept ++ [p]) (kept ++ [last]) :=
        List.rel_append (List.forall₂_same.2 fun q _ => .refl q) (.cons (.of_beq hlast) .nil)
      rw [if_pos hlast, List.append_nil] at hsteps
      rw [List.rdropWhile_concat_pos _ _ _ hlast, hopen]
      exact forall₂_trans (fun _ _ _ he he' => ⟨he.1.trans he'.1, he.2.trans he'.2⟩)
        (sameEdge_stepsFrom (.refl p) hclosing) hsteps
    · rw [List.rdropWhile_concat_neg _ _ _ hlast]
      rwa [if_neg hlast] at hsteps

/-- What is left of a ring that does not collapse are its corners. -/
theorem same_dedupRing {ring : List (Vec2 K)} (h : ¬ Collapses ring) :
    List.Forall₂ Vec2.Same (dedupRing ring) (corners ring) := by
  have hstarts := List.rel_map (fun _ _ he => he.1) (sameEdge_ringEdges_dedupRing h)
  rwa [map_fst_ringEdges] at hstarts

/-! ### The same ring listed otherwise -/

theorem Collapses.of_perm {ring ring' : List (Vec2 K)} (hring : ring.Perm ring')
    (h : Collapses ring) : Collapses ring' := by
  obtain _ | ⟨p, rest⟩ := ring
  · rwa [← hring.nil_eq]
  obtain _ | ⟨p', rest'⟩ := ring'
  · trivial
  intro q hq
  have hsame {r : Vec2 K} (hr : r ∈ p' :: rest') : r.Same p := by
    obtain rfl | hr := List.mem_cons.1 (hring.mem_iff.2 hr)
    · exact .refl r
    · exact .of_beq (h r hr)
  have hrest : rest ≠ [] := by
    rintro rfl
    have hlength := hring.length_eq
    rw [List.length_singleton, List.length_cons] at hlength
    exact absurd (List.length_pos_of_mem hq) (by omega)
  obtain ⟨r, hr⟩ := List.exists_mem_of_ne_nil rest hrest
  have hself : (p == p) = true := by
    rw [← Vec2.Same.beq_eq (.of_beq (h r hr)) (.refl p)]
    exact h r hr
  rwa [Vec2.Same.beq_eq (hsame (List.mem_cons_of_mem p' hq)) (hsame List.mem_cons_self)]

theorem Collapses.same_dedupRing {ring ring' : List (Vec2 K)} (hring : ring.Perm ring')
    (h : Collapses ring) : List.Forall₂ Vec2.Same (dedupRing ring) (dedupRing ring') := by
  have h' := h.of_perm hring
  obtain _ | ⟨p, rest⟩ := ring
  · rw [← hring.nil_eq]
    exact .nil
  obtain _ | ⟨p', rest'⟩ := ring'
  · exact absurd hring.eq_nil (List.cons_ne_nil p rest)
  rw [dedupRing_of_collapses h, dedupRing_of_collapses h']
  refine .cons ?_ .nil
  obtain rfl | hp := List.mem_cons.1 (hring.mem_iff.2 List.mem_cons_self)
  · exact .refl p'
  · exact (Vec2.Same.of_beq (h p' hp)).symm

/-! ### Exact arithmetic -/

theorem eq_of_same {p q : Vec2 ℝ} (h : p.Same q) : p = q :=
  congrArg₂ Vec2.mk (Scalar.eq_of_same_real h.1) (Scalar.eq_of_same_real h.2)

theorem ringEdges_dedupRing {ring : List (Vec2 ℝ)} (h : ¬ Collapses ring) :
    ringEdges (dedupRing ring) = (ringEdges ring).filter hasLength := by
  rw [← List.forall₂_eq_eq_eq]
  exact (sameEdge_ringEdges_dedupRing h).imp fun e f he =>
    Prod.ext (eq_of_same he.1) (eq_of_same he.2)

/-- Without repetitions, a ring in the opposite direction is the ring without repetitions in the
opposite direction, if perhaps cut open at another point. -/
theorem isRotated_dedupRing_reverse (ring : List (Vec2 ℝ)) :
    dedupRing ring.reverse ~r (dedupRing ring).reverse := by
  by_cases h : Collapses ring
  · have hsame := h.same_dedupRing (List.reverse_perm ring).symm
    obtain _ | ⟨p, rest⟩ := ring
    · exact .refl _
    · rw [dedupRing_of_collapses h] at hsame ⊢
      have hone : [p] = dedupRing (p :: rest).reverse := by
        rw [← List.forall₂_eq_eq_eq]
        exact hsame.imp fun _ _ => eq_of_same
      rw [← hone]
      exact .refl _
  · have hreverse : ¬ Collapses ring.reverse := fun hreverse =>
      h (hreverse.of_perm (List.reverse_perm ring))
    have hlength : hasLength ∘ Prod.swap = @hasLength ℝ _ := by
      funext e
      exact congrArg (!·) (Vec2.Same.beq_comm e.2 e.1)
    have hedges : ringEdges (dedupRing ring.reverse) ~r
        ((ringEdges (dedupRing ring)).map Prod.swap).reverse := by
      have hturned := isRotated_filter (isRotated_ringEdges_reverse ring) hasLength
      rwa [List.filter_reverse, List.filter_map, hlength, ← ringEdges_dedupRing h,
        ← ringEdges_dedupRing hreverse] at hturned
    have hstarts := (hedges.trans (isRotated_ringEdges_reverse (dedupRing ring)).symm).map Prod.fst
    rwa [map_fst_ringEdges, map_fst_ringEdges] at hstarts

end CityScene.Tessellation
