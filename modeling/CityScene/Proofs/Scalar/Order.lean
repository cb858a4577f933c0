import CityScene.Scalar
import Mathlib.Algebra.Order.Group.Int
import Mathlib.Data.Prod.Lex

/-!
# The order of scalars

A number type may hold values that compare with nothing, not even with themselves.  `OrderedScalar`
says what its comparison promises all the same: whatever compares with something compares with
itself (`le_left`, `le_right`), and among those numbers `≤` is transitive and total.

Floats promise this (`instOrderedScalarFloat`).  The proof gives every float that is a number, zeros
and infinities included, a `rank` among triples of integers: first the sign with infinity outermost,
then the exponent, then the mantissa.  `le_iff_rank` says that `≤` on floats is the lexicographic
order of ranks, so the two zeros have one rank and an undefined float has none.
-/

namespace CityScene

/-- What the comparison of scalars promises.  A number with `a ≤ a` is one that compares at all. -/
class OrderedScalar (K : Type) [Scalar K] : Prop where
  le_left : ∀ {a b : K}, a ≤ b → a ≤ a
  le_right : ∀ {a b : K}, a ≤ b → b ≤ b
  le_trans : ∀ {a b c : K}, a ≤ b → b ≤ c → a ≤ c
  le_total : ∀ {a b : K}, a ≤ a → b ≤ b → a ≤ b ∨ b ≤ a
  le_self_of_isFinite : ∀ {a : K}, Scalar.isFinite a = true → a ≤ a

namespace FloatOrder

open Float.Model (UnpackedFloat)
open Float.Model.UnpackedFloat

/-- The place of a float among all floats.  Equal numbers share a place; an undefined float has
none. -/
def unpackedRank : UnpackedFloat → Option (ℤ ×ₗ ℤ ×ₗ ℤ)
  | .notANumber => none
  | .infinity .negative => some (toLex (-2, toLex (0, 0)))
  | .finite .negative m e _ => some (toLex (-1, toLex (-e, -m)))
  | .zero _ => some (toLex (0, toLex (0, 0)))
  | .finite .positive m e _ => some (toLex (1, toLex (e, m)))
  | .infinity .positive => some (toLex (2, toLex (0, 0)))

theorem isLE_compare_then (e e' : ℤ) (m m' : ℕ) :
    ((compare e e').then (compare m m')).isLE = true ↔ e < e' ∨ e = e' ∧ m ≤ m' := by
  cases h : compare e e' with
  | lt => simp [Int.compare_eq_lt.1 h]
  | eq => simp [Int.compare_eq_eq.1 h, Nat.isLE_compare]
  | gt =>
    have hlt := Int.compare_eq_gt.1 h
    simp only [Ordering.gt_then, Ordering.isLE_gt, Bool.false_eq_true, false_iff]
    omega

theorem isGE_compare_then (e e' : ℤ) (m m' : ℕ) :
    ((compare e e').then (compare m m')).isGE = true ↔ e' < e ∨ e = e' ∧ m' ≤ m := by
  cases h : compare e e' with
  | lt =>
    have hlt := Int.compare_eq_lt.1 h
    simp only [Ordering.lt_then, Ordering.isGE_lt, Bool.false_eq_true, false_iff]
    omega
  | eq => simp [Int.compare_eq_eq.1 h, Nat.isGE_compare]
  | gt => simp [Int.compare_eq_gt.1 h]

theorem unpacked_le_iff (a b : UnpackedFloat) :
    a.le b = true ↔ ∃ x ∈ unpackedRank a, ∃ y ∈ unpackedRank b, x ≤ y := by
  have hsign : ∀ s t : Sign, compare s t = match s, t with
      | .negative, .negative => .eq
      | .negative, .positive => .lt
      | .positive, .negative => .gt
      | .positive, .positive => .eq := by
    intro s t
    cases s <;> cases t <;> rfl
  -- Only two floats of one sign need more than their signs: they are compared by exponent first.
  rcases a with (_ | _) | _ | _ | ⟨_ | _, m, e, _⟩ <;>
    rcases b with (_ | _) | _ | _ | ⟨_ | _, m', e', _⟩ <;>
    dsimp only [unpackedRank, UnpackedFloat.le, UnpackedFloat.compare] <;>
    simp [Prod.Lex.toLex_le_toLex, hsign, isLE_compare_then, isGE_compare_then]

/-- The rank of a float. -/
def rank (a : Float) : Option (ℤ ×ₗ ℤ ×ₗ ℤ) :=
  unpackedRank a.toModel.unpack

/-- **The order of floats is the order of their ranks.** -/
theorem le_iff_rank (a b : Float) : a ≤ b ↔ ∃ x ∈ rank a, ∃ y ∈ rank b, x ≤ y := by
  rw [rank, rank, ← unpacked_le_iff]
  show decide (a.toModel ≤ b.toModel) = true ↔ _
  rw [decide_eq_true_iff]
  exact Iff.rfl

theorem exists_unpackedRank_of_isFinite {a : UnpackedFloat} (h : a.isFinite = true) :
    ∃ x, unpackedRank a = some x := by
  cases a with
  | notANumber => cases h
  | infinity s => cases h
  | zero s => exact ⟨_, rfl⟩
  | finite s m e hm => cases s <;> exact ⟨_, rfl⟩

theorem exists_rank_of_isFinite {a : Float} (h : a.isFinite = true) : ∃ x, rank a = some x :=
  exists_unpackedRank_of_isFinite h

end FloatOrder

open FloatOrder in
instance : OrderedScalar Float where
  le_left := by
    intro a b h
    obtain ⟨x, hx, -⟩ := (le_iff_rank a b).1 h
    exact (le_iff_rank a a).2 ⟨x, hx, x, hx, le_refl x⟩
  le_right := by
    intro a b h
    obtain ⟨-, -, y, hy, -⟩ := (le_iff_rank a b).1 h
    exact (le_iff_rank b b).2 ⟨y, hy, y, hy, le_refl y⟩
  le_trans := by
    intro a b c hab hbc
    obtain ⟨x, hx, y, hy, hxy⟩ := (le_iff_rank a b).1 hab
    obtain ⟨y', hy', z, hz, hyz⟩ := (le_iff_rank b c).1 hbc
    obtain rfl : y = y' := Option.some.inj (hy.symm.trans hy')
    exact (le_iff_rank a c).2 ⟨x, hx, z, hz, le_trans hxy hyz⟩
  le_total := by
    intro a b ha hb
    obtain ⟨x, hx, -⟩ := (le_iff_rank a a).1 ha
    obtain ⟨y, hy, -⟩ := (le_iff_rank b b).1 hb
    rcases le_total x y with h | h
    · exact Or.inl ((le_iff_rank a b).2 ⟨x, hx, y, hy, h⟩)
    · exact Or.inr ((le_iff_rank b a).2 ⟨y, hy, x, hx, h⟩)
  le_self_of_isFinite := by
    intro a h
    obtain ⟨x, hx⟩ := exists_rank_of_isFinite h
    exact (le_iff_rank a a).2 ⟨x, hx, x, hx, le_refl x⟩

end CityScene
