/-!
# Arithmetic that may overflow

Machine words hold numbers of a limited size.  An operation whose result does not fit has none, and
what depends on it cannot go on.
-/

namespace CityScene

/-- The operation whose result does not fit in a machine word. -/
inductive Overflow
  | addition
  | subtraction
  | multiplication
deriving DecidableEq, Repr

def Overflow.message : Overflow → String
  | addition => "attempt to add with overflow"
  | subtraction => "attempt to subtract with overflow"
  | multiplication => "attempt to multiply with overflow"

namespace Checked

def add (a b : UInt64) : Except Overflow UInt64 :=
  if a.toBitVec.uaddOverflow b.toBitVec then .error .addition else .ok (a + b)

def mul (a b : UInt64) : Except Overflow UInt64 :=
  if a.toBitVec.umulOverflow b.toBitVec then .error .multiplication else .ok (a * b)

def addSigned (a b : Int64) : Except Overflow Int64 :=
  if a.toBitVec.saddOverflow b.toBitVec then .error .addition else .ok (a + b)

def subSigned (a b : Int64) : Except Overflow Int64 :=
  if a.toBitVec.ssubOverflow b.toBitVec then .error .subtraction else .ok (a - b)

/-! Each operation succeeds with the exact result and with no other. -/

theorem add_eq_ok_iff {a b c : UInt64} : add a b = .ok c ↔ c.toNat = a.toNat + b.toNat := by
  rw [add]
  split
  · next h =>
    refine iff_of_false (fun h => by cases h) fun hc => Nat.not_le.2 c.toNat_lt ?_
    exact hc ▸ of_decide_eq_true h
  · next h =>
    have hsum : (a + b).toNat = a.toNat + b.toNat := BitVec.toNat_add_of_not_uaddOverflow h
    rw [Except.ok.injEq, ← UInt64.toNat_inj, hsum]
    exact eq_comm

theorem mul_eq_ok_iff {a b c : UInt64} : mul a b = .ok c ↔ c.toNat = a.toNat * b.toNat := by
  rw [mul]
  split
  · next h =>
    refine iff_of_false (fun h => by cases h) fun hc => Nat.not_le.2 c.toNat_lt ?_
    exact hc ▸ of_decide_eq_true h
  · next h =>
    have hproduct : (a * b).toNat = a.toNat * b.toNat := BitVec.toNat_mul_of_not_umulOverflow h
    rw [Except.ok.injEq, ← UInt64.toNat_inj, hproduct]
    exact eq_comm

/-- No word has a number that is too large or too small. -/
theorem toInt_ne_of_outside (c : Int64) {n : Int}
    (h : (decide (n ≥ Int.pow 2 63) || decide (n < -Int.pow 2 63)) = true) : c.toInt ≠ n := by
  rintro rfl
  rcases Bool.or_eq_true_iff.1 h with h | h
  · exact Int.not_le.2 c.toInt_lt (of_decide_eq_true h)
  · exact Int.not_lt.2 c.le_toInt (of_decide_eq_true h)

theorem addSigned_eq_ok_iff {a b c : Int64} :
    addSigned a b = .ok c ↔ c.toInt = a.toInt + b.toInt := by
  rw [addSigned]
  split
  · next h =>
    exact iff_of_false (fun h => by cases h) (toInt_ne_of_outside c h)
  · next h =>
    have hsum : (a + b).toInt = a.toInt + b.toInt := BitVec.toInt_add_of_not_saddOverflow h
    rw [Except.ok.injEq, ← Int64.toInt_inj, hsum]
    exact eq_comm

theorem subSigned_eq_ok_iff {a b c : Int64} :
    subSigned a b = .ok c ↔ c.toInt = a.toInt - b.toInt := by
  rw [subSigned]
  split
  · next h =>
    exact iff_of_false (fun h => by cases h) (toInt_ne_of_outside c h)
  · next h =>
    have hdifference : (a - b).toInt = a.toInt - b.toInt :=
      BitVec.toInt_sub_of_not_ssubOverflow h
    rw [Except.ok.injEq, ← Int64.toInt_inj, hdifference]
    exact eq_comm

end Checked

end CityScene
