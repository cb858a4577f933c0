import CityScene.Proofs.Scalar.Exact

/-!
# Equal scalars

Two numbers may be equal without being identical: a number type may tell two zeros apart.  That
shows in what one divides by them, and `CongruentScalar` says that it shows nowhere else.  Numbers
that are the same, either equal or both undefined, compare alike with any other, and sums,
differences, products and roots of the same numbers are the same.  A difference of numbers that are
not equal is even identical (`sub_eq`), so that it may be divided by.

Floats promise this.  Unpacked, two floats that are the same can only be told apart if they are
zeros (`FloatZeros.Alike`), and every operation takes alike numbers to alike ones.
-/

namespace CityScene

open Scalar (same)

/-- Numbers that are the same can stand for each other. -/
class CongruentScalar (K : Type) [Scalar K] : Prop where
  same_symm : ∀ {a b : K}, same a b = true → same b a = true
  same_trans : ∀ {a b c : K}, same a b = true → same b c = true → same a c = true
  beq_congr : ∀ {a a' b b' : K}, same a a' = true → same b b' = true → (a == b) = (a' == b')
  lt_congr : ∀ {a a' b b' : K}, same a a' = true → same b b' = true → (a < b ↔ a' < b')
  le_congr : ∀ {a a' b b' : K}, same a a' = true → same b b' = true → (a ≤ b ↔ a' ≤ b')
  add_same : ∀ {a a' b b' : K}, same a a' = true → same b b' = true →
    same (a + b) (a' + b') = true
  sub_same : ∀ {a a' b b' : K}, same a a' = true → same b b' = true →
    same (a - b) (a' - b') = true
  mul_same : ∀ {a a' b b' : K}, same a a' = true → same b b' = true →
    same (a * b) (a' * b') = true
  div_same : ∀ {a a' : K} (b : K), same a a' = true → same (a / b) (a' / b) = true
  neg_same : ∀ {a a' : K}, same a a' = true → same (-a) (-a') = true
  sqrt_same : ∀ {a a' : K}, same a a' = true → same (Scalar.sqrt a) (Scalar.sqrt a') = true
  /-- A difference shows which zeros it is of only if it is one of zeros. -/
  sub_eq : ∀ {a a' b b' : K}, same a a' = true → same b b' = true → (a == b) = false →
    a - b = a' - b'

namespace Scalar

variable {K : Type} [Scalar K]

@[simp]
theorem same_self (a : K) : same a a = true := by
  cases h : a == a <;> simp [same, bne, h]

theorem same_of_beq {a b : K} (h : (a == b) = true) : same a b = true := by
  simp [same, h]

variable [CongruentScalar K] {a a' b b' : K}

open CongruentScalar

theorem larger_same (ha : same a a' = true) (hb : same b b' = true) :
    same (larger a b) (larger a' b') = true := by
  rw [larger, larger, if_congr (lt_congr ha hb) rfl rfl, beq_congr ha ha]
  split
  · exact hb
  · split
    · exact ha
    · exact hb

theorem smaller_same (ha : same a a' = true) (hb : same b b' = true) :
    same (smaller a b) (smaller a' b') = true := by
  rw [smaller, smaller, if_congr (lt_congr hb ha) rfl rfl, beq_congr ha ha]
  split
  · exact hb
  · split
    · exact ha
    · exact hb

end Scalar

/-! ### Floats -/

namespace FloatZeros

open Float.Model (UnpackedFloat Format)
open Float.Model.UnpackedFloat

/-- The same float, up to the sign of a zero. -/
inductive Alike : UnpackedFloat → UnpackedFloat → Prop
  | refl (u : UnpackedFloat) : Alike u u
  | zero (s t : Sign) : Alike (.zero s) (.zero t)

namespace Alike

variable {u u' v v' w : UnpackedFloat}

theorem symm (h : Alike u v) : Alike v u := by
  cases h with
  | refl => exact .refl _
  | zero s t => exact .zero t s

theorem trans (h : Alike u v) (h' : Alike v w) : Alike u w := by
  cases h with
  | refl => exact h'
  | zero s t => cases h' <;> exact .zero ..

/-- An operation keeps what is alike if it does so for zeros on either side. -/
theorem map₂ {f : UnpackedFloat → UnpackedFloat → UnpackedFloat}
    (hleft : ∀ s t v, Alike (f (.zero s) v) (f (.zero t) v))
    (hright : ∀ s t u, Alike (f u (.zero s)) (f u (.zero t))) (hu : Alike u u') (hv : Alike v v') :
    Alike (f u v) (f u' v') := by
  have hfirst : Alike (f u v) (f u' v) := by
    cases hu with
    | refl => exact .refl _
    | zero s t => exact hleft s t v
  refine hfirst.trans ?_
  cases hv with
  | refl => exact .refl _
  | zero s t => exact hright s t u'

theorem add (hu : Alike u u') (hv : Alike v v') :
    Alike (add .binary64 u v) (add .binary64 u' v') := by
  refine map₂ (fun s t v => ?_) (fun s t u => ?_) hu hv
  · cases v with
    | zero r => cases r <;> cases s <;> cases t <;> exact .zero ..
    | _ => exact .refl _
  · cases u with
    | zero r => cases r <;> cases s <;> cases t <;> exact .zero ..
    | _ => exact .refl _

theorem sub (hu : Alike u u') (hv : Alike v v') :
    Alike (sub .binary64 u v) (sub .binary64 u' v') := by
  refine map₂ (fun s t v => ?_) (fun s t u => ?_) hu hv
  · cases v with
    | zero r => cases r <;> cases s <;> cases t <;> exact .zero ..
    | _ => exact .refl _
  · cases u with
    | zero r => cases r <;> cases s <;> cases t <;> exact .zero ..
    | _ => exact .refl _

theorem mul (hu : Alike u u') (hv : Alike v v') :
    Alike (mul .binary64 u v) (mul .binary64 u' v') := by
  refine map₂ (fun s t v => ?_) (fun s t u => ?_) hu hv
  · cases v with
    | infinity | notANumber => exact .refl _
    | _ => exact .zero ..
  · cases u with
    | infinity | notANumber => exact .refl _
    | _ => exact .zero ..

theorem div (hu : Alike u u') (v : UnpackedFloat) :
    Alike (div .binary64 u v) (div .binary64 u' v) := by
  cases hu with
  | refl => exact .refl _
  | zero s t =>
    cases v with
    | infinity | finite => exact .zero ..
    | _ => exact .refl _

theorem neg (h : Alike u u') : Alike u.neg u'.neg := by
  cases h with
  | refl => exact .refl _
  | zero s t => exact .zero ..

theorem sqrt (h : Alike u u') : Alike (sqrt .binary64 u) (sqrt .binary64 u') := by
  cases h with
  | refl => exact .refl _
  | zero s t => exact .zero ..

theorem pack (h : Alike u v) :
    Alike (Float.Model.pack u).unpack (Float.Model.pack v).unpack := by
  have hzero (s : Sign) : (Float.Model.pack (.zero s)).unpack = .zero s := by
    cases s <;> rfl
  cases h with
  | refl => exact .refl _
  | zero s t =>
    rw [hzero, hzero]
    exact .zero s t

theorem compare_eq (hu : Alike u u') (hv : Alike v v') : u.compare v = u'.compare v' := by
  have hleft : u.compare v = u'.compare v := by
    cases hu with
    | refl => rfl
    | zero s t => rcases v with (_ | _) | _ | _ | ⟨_ | _, m, e, _⟩ <;> rfl
  rw [hleft]
  cases hv with
  | refl => rfl
  | zero s t => rcases u' with (_ | _) | _ | _ | ⟨_ | _, m, e, _⟩ <;> rfl

end Alike

theorem then_compare_eq_iff {e e' : Int} {m m' : Nat} :
    (compare e e').then (compare m m') = .eq ↔ e = e' ∧ m = m' := by
  rw [Ordering.then_eq_eq, Int.compare_eq_eq, Nat.compare_eq_eq]

/-- Floats that compare as equal are alike. -/
theorem alike_of_compare {u v : UnpackedFloat} (h : u.compare v = some .eq) : Alike u v := by
  -- of the pairs that compare as equal only two are not constant: finite floats of one sign
  rcases u with (_ | _) | _ | s | ⟨_ | _, m, e, _⟩ <;>
    rcases v with (_ | _) | _ | t | ⟨_ | _, m', e', _⟩ <;>
    first | exact .refl _ | exact .zero .. | cases h | skip
  · obtain ⟨rfl, rfl⟩ := then_compare_eq_iff.1 (Ordering.swap_eq_eq.1 (Option.some.inj h))
    exact .refl _
  · obtain ⟨rfl, rfl⟩ := then_compare_eq_iff.1 (Option.some.inj h)
    exact .refl _

/-- A float that does not even equal itself is undefined. -/
theorem eq_notANumber_of_compare {u : UnpackedFloat} (h : u.compare u ≠ some .eq) :
    u = .notANumber := by
  have hself (m : Nat) (e : Int) : (compare e e).then (compare m m) = .eq :=
    then_compare_eq_iff.2 ⟨rfl, rfl⟩
  cases u with
  | notANumber => rfl
  | infinity s => cases s <;> exact absurd rfl h
  | zero s => exact absurd rfl h
  | finite s m e _ =>
    cases s with
    | positive => exact absurd (congrArg some (hself m e)) h
    | negative => exact absurd (congrArg (fun o : Ordering => some o.swap) (hself m e)) h

theorem sub_eq {u u' v v' : UnpackedFloat} (hu : Alike u u') (hv : Alike v v')
    (h : u.compare v ≠ some .eq) : sub .binary64 u v = sub .binary64 u' v' := by
  cases hu with
  | refl =>
    cases hv with
    | refl => rfl
    | zero s t =>
      cases u with
      | zero => exact absurd rfl h
      | _ => rfl
  | zero s t =>
    cases hv with
    | refl =>
      cases v with
      | zero => exact absurd rfl h
      | _ => rfl
    | zero => exact absurd rfl h

theorem beq_iff {a b : Float} :
    (a == b) = true ↔ a.toModel.unpack.compare b.toModel.unpack = some .eq := by
  show (a.toModel.unpack.compare b.toModel.unpack == some .eq) = true ↔ _
  exact beq_iff_eq

theorem lt_iff {a b : Float} :
    a < b ↔ a.toModel.unpack.compare b.toModel.unpack = some .lt := by
  show decide (a.toModel < b.toModel) = true ↔ _
  rw [decide_eq_true_iff]
  show (a.toModel.unpack.compare b.toModel.unpack == some .lt) = true ↔ _
  exact beq_iff_eq

theorem le_iff {a b : Float} :
    a ≤ b ↔ (a.toModel.unpack.compare b.toModel.unpack).any (·.isLE) = true := by
  show decide (a.toModel ≤ b.toModel) = true ↔ _
  rw [decide_eq_true_iff]
  exact Iff.rfl

theorem same_iff {a b : Float} : same a b = true ↔ Alike a.toModel.unpack b.toModel.unpack := by
  have hundefined {c : Float} (h : (c != c) = true) : c.toModel.unpack = .notANumber :=
    eq_notANumber_of_compare fun hc => by simp [bne, beq_iff.2 hc] at h
  constructor
  · intro h
    rcases Bool.or_eq_true_iff.1 h with h | h
    · exact alike_of_compare (beq_iff.1 h)
    · obtain ⟨ha, hb⟩ := Bool.and_eq_true_iff.1 h
      rw [hundefined ha, hundefined hb]
      exact .refl _
  · intro h
    by_cases hb : (b == b) = true
    · exact Scalar.same_of_beq (beq_iff.2 ((h.compare_eq (.refl _)).trans (beq_iff.1 hb)))
    · have ha : ¬ (a == a) = true := fun ha =>
        hb (beq_iff.2 ((h.compare_eq h).symm.trans (beq_iff.1 ha)))
      simp [same, bne, ha, hb]

end FloatZeros

open FloatZeros in
instance : CongruentScalar Float where
  same_symm h := same_iff.2 (same_iff.1 h).symm
  same_trans h h' := same_iff.2 ((same_iff.1 h).trans (same_iff.1 h'))
  beq_congr ha hb := by
    rw [Bool.eq_iff_iff, beq_iff, beq_iff, (same_iff.1 ha).compare_eq (same_iff.1 hb)]
  lt_congr ha hb := by
    rw [lt_iff, lt_iff, (same_iff.1 ha).compare_eq (same_iff.1 hb)]
  le_congr ha hb := by
    rw [le_iff, le_iff, (same_iff.1 ha).compare_eq (same_iff.1 hb)]
  add_same ha hb := same_iff.2 ((same_iff.1 ha).add (same_iff.1 hb)).pack
  sub_same ha hb := same_iff.2 ((same_iff.1 ha).sub (same_iff.1 hb)).pack
  mul_same ha hb := same_iff.2 ((same_iff.1 ha).mul (same_iff.1 hb)).pack
  div_same b h := same_iff.2 ((same_iff.1 h).div b.toModel.unpack).pack
  neg_same h := same_iff.2 (same_iff.1 h).neg.pack
  sqrt_same h := same_iff.2 (same_iff.1 h).sqrt.pack
  sub_eq ha hb h :=
    congrArg (fun u => Float.ofModel (.pack u)) (FloatZeros.sub_eq (same_iff.1 ha) (same_iff.1 hb)
      fun hc => by simp [beq_iff.2 hc] at h)

/-! ### Real numbers -/

@[simp]
theorem Scalar.same_real (a b : ℝ) : same a b = decide (a = b) := by
  simp [same, bne]

theorem Scalar.eq_of_same_real {a b : ℝ} (h : same a b = true) : a = b := by
  rwa [same_real, decide_eq_true_iff] at h

open Scalar (eq_of_same_real same_self) in
instance : CongruentScalar ℝ where
  same_symm h := by rw [eq_of_same_real h, same_self]
  same_trans h h' := by rw [eq_of_same_real h, h']
  beq_congr h h' := by rw [eq_of_same_real h, eq_of_same_real h']
  lt_congr h h' := by rw [eq_of_same_real h, eq_of_same_real h']
  le_congr h h' := by rw [eq_of_same_real h, eq_of_same_real h']
  add_same h h' := by rw [eq_of_same_real h, eq_of_same_real h', same_self]
  sub_same h h' := by rw [eq_of_same_real h, eq_of_same_real h', same_self]
  mul_same h h' := by rw [eq_of_same_real h, eq_of_same_real h', same_self]
  div_same _ h := by rw [eq_of_same_real h, same_self]
  neg_same h := by rw [eq_of_same_real h, same_self]
  sqrt_same h := by rw [eq_of_same_real h, same_self]
  sub_eq h h' _ := by rw [eq_of_same_real h, eq_of_same_real h']

end CityScene
