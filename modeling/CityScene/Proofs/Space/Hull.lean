import CityScene.Proofs.Scalar.Order
import CityScene.Space.Envelope

/-!
# Least boxes

`Envelope.IsHull e points` says that `e` is the least box around the finite points of a list: it
holds each of them, and every box that holds them all contains `e`.  A list without a finite point
has the empty envelope and no other.

Points are compared by `p ≤ q` in every coordinate.  Only numbers that compare with themselves have
a smaller and a larger one of two, so `inf` and `sup` are bounds under that condition alone; the
corners of a hull meet it, as they lie below or above some finite point.

`IsHull.union` is the step that everything else rests on: the union of two hulls is the hull of both
lists together.  Adding a point is a union with the box of that point, and so the hull of a list of
points (`isHull_ofPoints`) comes from it.
-/

namespace CityScene

variable {K : Type} [Scalar K]

/-- Every coordinate of the first point is at most that of the second. -/
instance : LE (Vec3 K) where
  le p q := p.x ≤ q.x ∧ p.y ≤ q.y ∧ p.z ≤ q.z

namespace Envelope

theorem le_inf {p q r : Vec3 K} (h : r ≤ p) (h' : r ≤ q) : r ≤ inf p q := by
  refine ⟨?_, ?_, ?_⟩ <;> simp only [inf] <;> split
  exacts [h.1, h'.1, h.2.1, h'.2.1, h.2.2, h'.2.2]

theorem inf_le {p q r : Vec3 K} (h : p ≤ r) (h' : q ≤ r) : inf p q ≤ r := by
  refine ⟨?_, ?_, ?_⟩ <;> simp only [inf] <;> split
  exacts [h.1, h'.1, h.2.1, h'.2.1, h.2.2, h'.2.2]

theorem le_sup {p q r : Vec3 K} (h : r ≤ p) (h' : r ≤ q) : r ≤ sup p q := by
  refine ⟨?_, ?_, ?_⟩ <;> simp only [sup] <;> split
  exacts [h.1, h'.1, h.2.1, h'.2.1, h.2.2, h'.2.2]

theorem sup_le {p q r : Vec3 K} (h : p ≤ r) (h' : q ≤ r) : sup p q ≤ r := by
  refine ⟨?_, ?_, ?_⟩ <;> simp only [sup] <;> split
  exacts [h.1, h'.1, h.2.1, h'.2.1, h.2.2, h'.2.2]

/-! ### What a box holds -/

@[simp]
theorem containsPoint_empty (p : Vec3 K) : (empty : Envelope K).containsPoint p = false := rfl

@[simp]
theorem containsPoint_box {lower upper p : Vec3 K} :
    (box lower upper).containsPoint p = true ↔ lower ≤ p ∧ p ≤ upper := by
  show _ ↔ (lower.x ≤ p.x ∧ lower.y ≤ p.y ∧ lower.z ≤ p.z) ∧
    (p.x ≤ upper.x ∧ p.y ≤ upper.y ∧ p.z ≤ upper.z)
  simp only [containsPoint, Bool.and_eq_true, decide_eq_true_eq]
  constructor
  · rintro ⟨⟨⟨hx, hx'⟩, hy, hy'⟩, hz, hz'⟩
    exact ⟨⟨hx, hy, hz⟩, hx', hy', hz'⟩
  · rintro ⟨⟨hx, hy, hz⟩, hx', hy', hz'⟩
    exact ⟨⟨⟨hx, hx'⟩, hy, hy'⟩, hz, hz'⟩

@[simp]
theorem containsEnvelope_empty (e : Envelope K) : e.containsEnvelope empty = true := rfl

@[simp]
theorem containsEnvelope_box {e : Envelope K} {lower upper : Vec3 K} :
    e.containsEnvelope (box lower upper) = true ↔
      e.containsPoint lower = true ∧ e.containsPoint upper = true := by
  simp only [containsEnvelope, Bool.and_eq_true]

/-- A box that contains both parts contains their union. -/
theorem containsEnvelope_union {e f g : Envelope K} (he : g.containsEnvelope e = true)
    (hf : g.containsEnvelope f = true) : g.containsEnvelope (e.union f) = true := by
  cases f with
  | empty => cases e <;> exact he
  | box lower' upper' =>
    cases e with
    | empty => exact hf
    | box lower upper =>
      cases g with
      | empty => simp at hf
      | box least greatest =>
        simp only [union, containsEnvelope_box, containsPoint_box] at *
        exact ⟨⟨le_inf he.1.1 hf.1.1, inf_le he.1.2 hf.1.2⟩,
          ⟨le_sup he.2.1 hf.2.1, sup_le he.2.2 hf.2.2⟩⟩

theorem addPoint_of_isFinite {p : Vec3 K} (h : p.isFinite = true) (e : Envelope K) :
    e.addPoint p = e.union (box p p) := by
  cases e <;> exact if_pos h

theorem addPoint_of_not_isFinite {p : Vec3 K} (h : ¬ p.isFinite = true) (e : Envelope K) :
    e.addPoint p = e := by
  cases e <;> exact if_neg h

/-! ### Hulls -/

/-- The least box around the finite points of a list. -/
structure IsHull (e : Envelope K) (points : List (Vec3 K)) : Prop where
  contains : ∀ p ∈ points, p.isFinite = true → e.containsPoint p = true
  least : ∀ f : Envelope K, (∀ p ∈ points, p.isFinite = true → f.containsPoint p = true) →
    f.containsEnvelope e = true

theorem isHull_nil : IsHull (empty : Envelope K) [] where
  contains _ hp := absurd hp List.not_mem_nil
  least _ _ := rfl

namespace IsHull

variable {e f : Envelope K} {points rest : List (Vec3 K)}

/-- Only which finite points there are counts, neither their order nor how often they stand. -/
theorem congr (h : IsHull e points)
    (hmem : ∀ p : Vec3 K, p.isFinite = true → (p ∈ points ↔ p ∈ rest)) : IsHull e rest where
  contains p hp hfin := h.contains p ((hmem p hfin).2 hp) hfin
  least f hf := h.least f fun p hp hfin => hf p ((hmem p hfin).1 hp) hfin

/-- **A hull is a box exactly if there is a finite point.** -/
theorem isValid_iff (h : IsHull e points) :
    e.isValid = true ↔ ∃ p ∈ points, p.isFinite = true := by
  constructor
  · intro hv
    by_contra hnone
    have hempty := h.least empty fun p hp hfin => absurd ⟨p, hp, hfin⟩ hnone
    cases e with
    | empty => simp [isValid] at hv
    | box lower upper => simp at hempty
  · rintro ⟨p, hp, hfin⟩
    have hc := h.contains p hp hfin
    cases e with
    | empty => simp at hc
    | box lower upper => rfl

/-- The hull of more points contains the hull of fewer. -/
theorem containsEnvelope (h : IsHull e points) (h' : IsHull f rest) (hsub : rest ⊆ points) :
    e.containsEnvelope f = true :=
  h'.least e fun p hp hfin => h.contains p (hsub hp) hfin

end IsHull

end Envelope

/-! ### Where the order is total -/

variable [OrderedScalar K]

namespace Vec3

theorem le_self_of_le {p q : Vec3 K} (h : p ≤ q) : p ≤ p :=
  ⟨OrderedScalar.le_left h.1, OrderedScalar.le_left h.2.1, OrderedScalar.le_left h.2.2⟩

theorem le_self_of_ge {p q : Vec3 K} (h : p ≤ q) : q ≤ q :=
  ⟨OrderedScalar.le_right h.1, OrderedScalar.le_right h.2.1, OrderedScalar.le_right h.2.2⟩

theorem le_trans {p q r : Vec3 K} (h : p ≤ q) (h' : q ≤ r) : p ≤ r :=
  ⟨OrderedScalar.le_trans h.1 h'.1, OrderedScalar.le_trans h.2.1 h'.2.1,
    OrderedScalar.le_trans h.2.2 h'.2.2⟩

theorem le_self_of_isFinite {p : Vec3 K} (h : p.isFinite = true) : p ≤ p := by
  simp only [isFinite, Bool.and_eq_true] at h
  exact ⟨OrderedScalar.le_self_of_isFinite h.1.1, OrderedScalar.le_self_of_isFinite h.1.2,
    OrderedScalar.le_self_of_isFinite h.2⟩

end Vec3

/-- Of two numbers that compare, one is the smaller. -/
theorem ite_le_left {a b : K} (ha : a ≤ a) (hb : b ≤ b) : (if a ≤ b then a else b) ≤ a := by
  split
  · exact ha
  · next h => exact (OrderedScalar.le_total ha hb).resolve_left h

theorem le_ite_left {a b : K} (ha : a ≤ a) (hb : b ≤ b) : a ≤ (if b ≤ a then a else b) := by
  split
  · exact ha
  · next h => exact (OrderedScalar.le_total ha hb).resolve_right h

omit [OrderedScalar K] in
theorem ite_le_right {a b : K} (hb : b ≤ b) : (if a ≤ b then a else b) ≤ b := by
  split
  · next h => exact h
  · exact hb

omit [OrderedScalar K] in
theorem le_ite_right {a b : K} (hb : b ≤ b) : b ≤ (if b ≤ a then a else b) := by
  split
  · next h => exact h
  · exact hb

namespace Envelope

/-- The corners compare, as those of any box do that holds a point. -/
def IsDefined : Envelope K → Prop
  | empty => True
  | box lower upper => lower ≤ lower ∧ upper ≤ upper

theorem containsPoint_union_left {e f : Envelope K} (hf : f.IsDefined) {p : Vec3 K}
    (h : e.containsPoint p = true) : (e.union f).containsPoint p = true := by
  cases e with
  | empty => simp at h
  | box lower upper =>
    cases f with
    | empty => exact h
    | box lower' upper' =>
      obtain ⟨hl, hu⟩ := containsPoint_box.1 h
      have hl' := Vec3.le_self_of_le hl
      have hu' := Vec3.le_self_of_ge hu
      refine containsPoint_box.2 ⟨Vec3.le_trans ?_ hl, Vec3.le_trans hu ?_⟩
      · exact ⟨ite_le_left hl'.1 hf.1.1, ite_le_left hl'.2.1 hf.1.2.1,
          ite_le_left hl'.2.2 hf.1.2.2⟩
      · exact ⟨le_ite_left hu'.1 hf.2.1, le_ite_left hu'.2.1 hf.2.2.1,
          le_ite_left hu'.2.2 hf.2.2.2⟩

theorem containsPoint_union_right {e f : Envelope K} {p : Vec3 K}
    (h : f.containsPoint p = true) : (e.union f).containsPoint p = true := by
  cases f with
  | empty => simp at h
  | box lower upper =>
    cases e with
    | empty => exact h
    | box lower' upper' =>
      obtain ⟨hl, hu⟩ := containsPoint_box.1 h
      have hl' := Vec3.le_self_of_le hl
      have hu' := Vec3.le_self_of_ge hu
      refine containsPoint_box.2 ⟨Vec3.le_trans ?_ hl, Vec3.le_trans hu ?_⟩
      · exact ⟨ite_le_right hl'.1, ite_le_right hl'.2.1, ite_le_right hl'.2.2⟩
      · exact ⟨le_ite_right hu'.1, le_ite_right hu'.2.1, le_ite_right hu'.2.2⟩

namespace IsHull

variable {e f : Envelope K} {points rest : List (Vec3 K)}

/-- **The lower corner of a hull is below the upper one.** -/
theorem lower_le_upper {lower upper : Vec3 K} (h : IsHull (box lower upper) points) :
    lower ≤ upper := by
  obtain ⟨p, hp, hfin⟩ := h.isValid_iff.1 rfl
  obtain ⟨hl, hu⟩ := containsPoint_box.1 (h.contains p hp hfin)
  exact Vec3.le_trans hl hu

theorem isDefined (h : IsHull e points) : e.IsDefined := by
  cases e with
  | empty => trivial
  | box lower upper =>
    exact ⟨Vec3.le_self_of_le h.lower_le_upper, Vec3.le_self_of_ge h.lower_le_upper⟩

/-- **The union of two hulls is the hull of all their points.** -/
theorem union (h : IsHull e points) (h' : IsHull f rest) :
    IsHull (e.union f) (points ++ rest) where
  contains p hp hfin := by
    rcases List.mem_append.1 hp with hp | hp
    · exact containsPoint_union_left h'.isDefined (h.contains p hp hfin)
    · exact containsPoint_union_right (h'.contains p hp hfin)
  least g hg := by
    refine containsEnvelope_union (h.least g fun p hp => hg p ?_) (h'.least g fun p hp => hg p ?_)
    · exact List.mem_append_left _ hp
    · exact List.mem_append_right _ hp

end IsHull

theorem isHull_singleton {p : Vec3 K} (h : p.isFinite = true) : IsHull (box p p) [p] where
  contains q hq _ := by
    obtain rfl := List.mem_singleton.1 hq
    exact containsPoint_box.2 ⟨Vec3.le_self_of_isFinite h, Vec3.le_self_of_isFinite h⟩
  least f hf := by
    have hp := hf p (List.mem_singleton.2 rfl) h
    exact containsEnvelope_box.2 ⟨hp, hp⟩

theorem IsHull.addPoint {e : Envelope K} {points : List (Vec3 K)} (h : IsHull e points)
    (p : Vec3 K) : IsHull (e.addPoint p) (points ++ [p]) := by
  by_cases hfin : p.isFinite = true
  · rw [addPoint_of_isFinite hfin]
    exact h.union (isHull_singleton hfin)
  · rw [addPoint_of_not_isFinite hfin]
    refine h.congr fun q hq => ⟨fun hm => List.mem_append_left _ hm, fun hm => ?_⟩
    rcases List.mem_append.1 hm with hm | hm
    · exact hm
    · exact absurd (List.mem_singleton.1 hm ▸ hq) hfin

theorem isHull_foldl_addPoint {e : Envelope K} {before : List (Vec3 K)} (h : IsHull e before)
    (points : List (Vec3 K)) : IsHull (points.foldl Envelope.addPoint e) (before ++ points) := by
  induction points generalizing e before with
  | nil => rw [List.append_nil]; exact h
  | cons p rest ih =>
    rw [List.append_cons]
    exact ih (h.addPoint p)

theorem isHull_ofPoints (points : List (Vec3 K)) : IsHull (ofPoints points) points :=
  isHull_foldl_addPoint isHull_nil points

end Envelope

end CityScene
