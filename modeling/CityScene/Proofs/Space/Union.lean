import CityScene.Proofs.Scalar.Same
import CityScene.Proofs.Space.Hull

/-!
# Envelopes under union

An envelope is grown from the empty one by adding points and by uniting it with other envelopes that
were grown in the same way (`Envelope.Grown`).  However that is done, it is the hull of the points
that went in (`Grown.isHull`), and two hulls of the same finite points contain each other.  So the
laws of union are laws of sets of points: order, grouping and repetition do not matter.

Envelopes that contain each other have equal corners, but not identical ones, as there are two
zeros: `sameBox` compares corners as numbers.  Up to that, containment is a partial order of the
grown envelopes, and union is its join.
-/

namespace CityScene

/-! ### Equal floats -/

namespace FloatOrder

open Float.Model (UnpackedFloat)
open Float.Model.UnpackedFloat

theorem unpacked_compare_eq_iff (a b : UnpackedFloat) :
    a.compare b = some .eq ↔ ∃ x ∈ unpackedRank a, x ∈ unpackedRank b := by
  have hsign (s : Sign) : compare s s = .eq := by cases s <;> rfl
  have hpair {e e' : ℤ} {m m' : ℕ} :
      (compare e e').then (compare m m') = .eq ↔ e = e' ∧ m = m' := FloatZeros.then_compare_eq_iff
  rcases a with (_ | _) | _ | _ | ⟨_ | _, m, e, _⟩ <;>
    rcases b with (_ | _) | _ | _ | ⟨_ | _, m', e', _⟩ <;>
    dsimp only [unpackedRank, UnpackedFloat.compare] <;>
    simp [hsign, hpair]
  -- what is left are two finite floats of one sign
  · exact and_congr eq_comm eq_comm
  · exact and_congr eq_comm eq_comm

/-- **Equal floats are those that share a place.** -/
theorem beq_iff_rank (a b : Float) : (a == b) = true ↔ ∃ x ∈ rank a, x ∈ rank b := by
  rw [FloatZeros.beq_iff, unpacked_compare_eq_iff, rank, rank]

theorem beq_iff_le (a b : Float) : (a == b) = true ↔ a ≤ b ∧ b ≤ a := by
  rw [beq_iff_rank, le_iff_rank, le_iff_rank]
  constructor
  · rintro ⟨x, ha, hb⟩
    exact ⟨⟨x, ha, x, hb, le_refl x⟩, ⟨x, hb, x, ha, le_refl x⟩⟩
  · rintro ⟨⟨x, ha, y, hb, hxy⟩, y', hb', x', ha', hyx⟩
    obtain rfl : x = x' := Option.some.inj (ha.symm.trans ha')
    obtain rfl : y = y' := Option.some.inj (hb.symm.trans hb')
    obtain rfl : x = y := le_antisymm hxy hyx
    exact ⟨x, ha, hb⟩

end FloatOrder

theorem Vec3.beq_iff_le (p q : Vec3 Float) : (p == q) = true ↔ p ≤ q ∧ q ≤ p := by
  show (p.x == q.x && p.y == q.y && p.z == q.z) = true ↔
    (p.x ≤ q.x ∧ p.y ≤ q.y ∧ p.z ≤ q.z) ∧ (q.x ≤ p.x ∧ q.y ≤ p.y ∧ q.z ≤ p.z)
  rw [Bool.and_eq_true, Bool.and_eq_true, FloatOrder.beq_iff_le, FloatOrder.beq_iff_le,
    FloatOrder.beq_iff_le]
  constructor
  · rintro ⟨⟨⟨hx, hx'⟩, hy, hy'⟩, hz, hz'⟩
    exact ⟨⟨hx, hy, hz⟩, hx', hy', hz'⟩
  · rintro ⟨⟨hx, hy, hz⟩, hx', hy', hz'⟩
    exact ⟨⟨⟨hx, hx'⟩, hy, hy'⟩, hz, hz'⟩

namespace Envelope

/-! ### Containment -/

/-- No box, or boxes with equal corners. -/
def sameBox {K : Type} [Scalar K] : Envelope K → Envelope K → Bool
  | empty, empty => true
  | box lower upper, box lower' upper' => lower == lower' && upper == upper'
  | _, _ => false

theorem sameBox_box {lower upper lower' upper' : Vec3 Float} :
    (box lower upper).sameBox (box lower' upper') = true ↔
      (lower ≤ lower' ∧ lower' ≤ lower) ∧ upper ≤ upper' ∧ upper' ≤ upper := by
  rw [sameBox, Bool.and_eq_true, Vec3.beq_iff_le, Vec3.beq_iff_le]

/-- **Envelopes that contain each other are the same box.** -/
theorem sameBox_of_contains {e f : Envelope Float} (h : e.containsEnvelope f = true)
    (h' : f.containsEnvelope e = true) : e.sameBox f = true := by
  cases e with
  | empty =>
    cases f with
    | empty => rfl
    | box lower' upper' => simp at h
  | box lower upper =>
    cases f with
    | empty => simp at h'
    | box lower' upper' =>
      rw [containsEnvelope_box, containsPoint_box, containsPoint_box] at h h'
      exact sameBox_box.2 ⟨⟨h.1.1, h'.1.1⟩, h'.2.2, h.2.2⟩

section Order

variable {K : Type} [Scalar K] [OrderedScalar K] {e f g : Envelope K} {p : Vec3 K}

theorem containsPoint_of_contains (h : e.containsEnvelope f = true)
    (hp : f.containsPoint p = true) : e.containsPoint p = true := by
  cases f with
  | empty => simp at hp
  | box lower' upper' =>
    cases e with
    | empty => simp at h
    | box lower upper =>
      rw [containsEnvelope_box, containsPoint_box, containsPoint_box] at h
      rw [containsPoint_box] at hp ⊢
      exact ⟨Vec3.le_trans h.1.1 hp.1, Vec3.le_trans hp.2 h.2.2⟩

theorem containsEnvelope_trans (h : e.containsEnvelope f = true)
    (h' : f.containsEnvelope g = true) : e.containsEnvelope g = true := by
  cases g with
  | empty => rfl
  | box lower upper =>
    rw [containsEnvelope_box] at h' ⊢
    exact ⟨containsPoint_of_contains h h'.1, containsPoint_of_contains h h'.2⟩

omit [OrderedScalar K] in
theorem IsHull.contains_self {points : List (Vec3 K)} (h : IsHull e points) :
    e.containsEnvelope e = true :=
  h.containsEnvelope h (List.Subset.refl points)

end Order

/-- **Hulls of the same finite points are the same box.** -/
theorem IsHull.sameBox {e f : Envelope Float} {points rest : List (Vec3 Float)}
    (h : IsHull e points) (h' : IsHull f rest)
    (hmem : ∀ p : Vec3 Float, p.isFinite = true → (p ∈ points ↔ p ∈ rest)) :
    e.sameBox f = true := by
  have hrest : IsHull e rest := h.congr hmem
  exact sameBox_of_contains (hrest.containsEnvelope h' (List.Subset.refl rest))
    (h'.containsEnvelope hrest (List.Subset.refl rest))

/-- A box with ordered corners is the same as another one exactly if they contain each other. -/
theorem IsHull.sameBox_iff {e f : Envelope Float} {points rest : List (Vec3 Float)}
    (h : IsHull e points) (h' : IsHull f rest) :
    e.sameBox f = true ↔ e.containsEnvelope f = true ∧ f.containsEnvelope e = true := by
  refine ⟨fun hsame => ?_, fun hboth => sameBox_of_contains hboth.1 hboth.2⟩
  cases e with
  | empty =>
    cases f with
    | empty => exact ⟨rfl, rfl⟩
    | box lower' upper' => cases hsame
  | box lower upper =>
    cases f with
    | empty => cases hsame
    | box lower' upper' =>
      obtain ⟨⟨hl, hl'⟩, hu, hu'⟩ := sameBox_box.1 hsame
      rw [containsEnvelope_box, containsEnvelope_box, containsPoint_box, containsPoint_box,
        containsPoint_box, containsPoint_box]
      exact ⟨⟨⟨hl, Vec3.le_trans h'.lower_le_upper hu'⟩, Vec3.le_trans hl h'.lower_le_upper, hu'⟩,
        ⟨hl', Vec3.le_trans h.lower_le_upper hu⟩, Vec3.le_trans hl' h.lower_le_upper, hu⟩

/-! ### Growing -/

/-- An envelope comes about from the empty one by adding points and by uniting it with others that
came about in this way, and these are the points that went in. -/
inductive Grown {K : Type} [Scalar K] : Envelope K → List (Vec3 K) → Prop
  | empty : Grown empty []
  | addPoint {e : Envelope K} {points : List (Vec3 K)} (h : Grown e points) (p : Vec3 K) :
      Grown (e.addPoint p) (points ++ [p])
  | union {e f : Envelope K} {points more : List (Vec3 K)} (h : Grown e points)
      (h' : Grown f more) : Grown (e.union f) (points ++ more)

namespace Grown

variable {K : Type} [Scalar K]

/-- **An envelope that was grown is the hull of what went in.** -/
theorem isHull [OrderedScalar K] {e : Envelope K} {points : List (Vec3 K)} (h : Grown e points) :
    IsHull e points := by
  induction h with
  | empty => exact isHull_nil
  | addPoint h p ih => exact ih.addPoint p
  | union h h' ih ih' => exact ih.union ih'

theorem foldl_addPoint {e : Envelope K} {before : List (Vec3 K)} (h : Grown e before)
    (points : List (Vec3 K)) : Grown (points.foldl Envelope.addPoint e) (before ++ points) := by
  induction points generalizing e before with
  | nil => rw [List.append_nil]; exact h
  | cons p rest ih =>
    rw [List.append_cons]
    exact ih (h.addPoint p)

theorem ofPoints (points : List (Vec3 K)) : Grown (Envelope.ofPoints points) points :=
  empty.foldl_addPoint points

end Grown

@[simp]
theorem union_empty {K : Type} [Scalar K] (e : Envelope K) : e.union empty = e := by
  cases e <;> rfl

@[simp]
theorem empty_union {K : Type} [Scalar K] (e : Envelope K) : (empty : Envelope K).union e = e := by
  cases e <;> rfl

/-- **Union is the join of the envelopes that are grown.**  Such an envelope is the least box around
the finite points that went in, and empty exactly if there were none.  So union is commutative,
associative and idempotent with the empty envelope as its unit, and the box around some points does
not depend on their order.  Containment is a partial order up to equal corners, the union is the
least envelope that contains both parts, and neither points nor envelopes make a box smaller. -/
theorem union_of_grown {e f g : Envelope Float} {points more rest : List (Vec3 Float)}
    (he : Grown e points) (hf : Grown f more) (hg : Grown g rest) :
    (IsHull e points ∧ (e.isValid = true ↔ ∃ p ∈ points, p.isFinite = true)) ∧
    ((e.union f).sameBox (f.union e) = true ∧
      ((e.union f).union g).sameBox (e.union (f.union g)) = true ∧
      (e.union e).sameBox e = true ∧ e.union empty = e ∧ empty.union e = e) ∧
    (∀ ps ps' : List (Vec3 Float), ps.Perm ps' → (ofPoints ps).sameBox (ofPoints ps') = true) ∧
    (e.containsEnvelope e = true ∧
      (e.containsEnvelope f = true → f.containsEnvelope g = true → e.containsEnvelope g = true) ∧
      (e.sameBox f = true ↔ e.containsEnvelope f = true ∧ f.containsEnvelope e = true)) ∧
    ((e.union f).containsEnvelope e = true ∧ (e.union f).containsEnvelope f = true ∧
      (g.containsEnvelope (e.union f) = true ↔
        g.containsEnvelope e = true ∧ g.containsEnvelope f = true)) ∧
    ∀ p, (e.addPoint p).containsEnvelope e = true := by
  have hull := he.isHull
  have hull' := hf.isHull
  have hull'' := hg.isHull
  have hleft : (e.union f).containsEnvelope e = true :=
    (hull.union hull').containsEnvelope hull (List.subset_append_left points more)
  have hright : (e.union f).containsEnvelope f = true :=
    (hull.union hull').containsEnvelope hull' (List.subset_append_right points more)
  refine ⟨⟨hull, hull.isValid_iff⟩, ⟨?_, ?_, ?_, union_empty e, empty_union e⟩, ?_,
    ⟨hull.contains_self, containsEnvelope_trans, hull.sameBox_iff hull'⟩, ⟨hleft, hright, ?_⟩, ?_⟩
  · exact (hull.union hull').sameBox (hull'.union hull) fun p _ => by
      rw [List.mem_append, List.mem_append, or_comm]
  · exact ((hull.union hull').union hull'').sameBox (hull.union (hull'.union hull''))
      fun p _ => by rw [List.append_assoc]
  · exact (hull.union hull).sameBox hull fun p _ => by rw [List.mem_append, or_self]
  · intro ps ps' hperm
    exact (isHull_ofPoints ps).sameBox (isHull_ofPoints ps') fun p _ => hperm.mem_iff
  · constructor
    · intro h
      exact ⟨containsEnvelope_trans h hleft, containsEnvelope_trans h hright⟩
    · rintro ⟨h, h'⟩
      exact containsEnvelope_union h h'
  · intro p
    exact (hull.addPoint p).containsEnvelope hull (List.subset_append_left points [p])

/-- The box of the origin and a point whose height is undefined, and the box of a point with a
negative zero: which zero the union has depends on the order. -/
theorem union_of_twoZeros :
    let e : Envelope Float := (ofPoints [⟨0, 0, 0⟩]).addPoint ⟨4, 3, 0 / 0⟩
    let f : Envelope Float := ofPoints [⟨-0, 2, 0⟩]
    Grown e [⟨0, 0, 0⟩, ⟨4, 3, 0 / 0⟩] ∧ Grown f [⟨-0, 2, 0⟩] ∧ e.union f ≠ f.union e ∧
      (e.union f).sameBox (f.union e) = true := by
  intro e f
  have he : Grown e [⟨0, 0, 0⟩, ⟨4, 3, 0 / 0⟩] :=
    (Grown.ofPoints [⟨0, 0, 0⟩]).addPoint ⟨4, 3, 0 / 0⟩
  have hf : Grown f [⟨-0, 2, 0⟩] := Grown.ofPoints [⟨-0, 2, 0⟩]
  exact ⟨he, hf, by decide +kernel, (union_of_grown he hf Grown.empty).2.1.1⟩

end Envelope

end CityScene
