import CityScene.Attribute.Value
import CityScene.Proofs.Decimal.Floats

/-!
# What coercion keeps

A number may be stored as an integer, as a double or as a measure.  Turning one of these into
another can lose something in two ways: an integer of more than fifty-three bits is rounded to a
double, and a whole double outside the range of integers becomes the integer at the end of the
range (`coerce?_rounded`).  `number?_of_coerce?` says that this is all: the number is kept wherever
the type asked for has it.
-/

namespace CityScene.Value

open Decimal (Binary)

/-! ### Types -/

theorem type_of_parseAs? {s : String} {type : ValueType} {unit : Option String} {v : Value}
    (h : parseAs? s type unit = some v) : v.type = type := by
  unfold parseAs? at h
  cases type with
  | string => cases h; rfl
  | uri => cases h; rfl
  | double => obtain ⟨_, -, rfl⟩ := Option.map_eq_some_iff.1 h; rfl
  | integer => obtain ⟨_, -, rfl⟩ := Option.map_eq_some_iff.1 h; rfl
  | date => obtain ⟨_, -, rfl⟩ := Option.map_eq_some_iff.1 h; rfl
  | measure => obtain ⟨_, -, rfl⟩ := Option.map_eq_some_iff.1 h; rfl

/-- Coercion gives a value of the type asked for. -/
theorem type_of_coerce? {v w : Value} {type : ValueType} (h : v.coerce? type = some w) :
    w.type = type := by
  unfold coerce? at h
  split at h
  · next hsame =>
    obtain rfl := Option.some.inj h
    exact hsame
  · split at h
    · exact type_of_parseAs? h
    · cases h; rfl
    · cases h; rfl
    · cases h; rfl
    · cases h; rfl
    · cases h; rfl
    · obtain ⟨_, -, rfl⟩ := Option.map_eq_some_iff.1 h
      rfl
    · cases h

/-! ### Numbers -/

/-- The number that a float stands for, if it is finite. -/
def floatNumber? (x : Float) : Option ℚ :=
  if x.isFinite then some (Binary.ofFloat x).value else none

/-- The number that a numeric value stands for. -/
def number? : Value → Option ℚ
  | integer n => some n.toInt
  | double x | measure x _ => floatNumber? x
  | _ => none

theorem floatNumber?_eq_some_iff {x : Float} {q : ℚ} :
    floatNumber? x = some q ↔ x.isFinite = true ∧ (Binary.ofFloat x).value = q := by
  rw [floatNumber?]
  split <;> simp_all

/-- An integer is converted to the float that has its value, if there is one. -/
theorem floatNumber?_ofInt {n : Int} {x : Float} (h : floatNumber? x = some n) :
    floatNumber? (Float.ofInt n) = some n := by
  obtain ⟨hfinite, hvalue⟩ := floatNumber?_eq_some_iff.1 h
  exact floatNumber?_eq_some_iff.2 (Decimal.value_ofInt hfinite hvalue)

/-- A float is converted to the integer that has its value, if there is one. -/
theorem eq_of_wholeNumber? {x : Float} {n k : Int64} (h : wholeNumber? x = some n)
    (hvalue : floatNumber? x = some k.toInt) : n = k := by
  obtain ⟨hfinite, hvalue⟩ := floatNumber?_eq_some_iff.1 hvalue
  unfold wholeNumber? at h
  split at h
  · next hboth =>
    have hwhole := (Bool.and_eq_true_iff.1 hboth).2
    have hsame : (Binary.ofFloat x).truncate = k.toInt := by
      exact_mod_cast (Decimal.value_eq_truncate hwhole).symm.trans hvalue
    have hinside : max Int64.minValue.toInt (min Int64.maxValue.toInt k.toInt) = k.toInt := by
      rw [min_eq_right k.toInt_le, max_eq_right k.minValue_le_toInt]
    have hn := Option.some.inj h
    rw [Decimal.integerPart, if_pos hfinite, hsame, hinside, Int64.ofInt_toInt] at hn
    exact hn.symm
  · cases h

/-- Values with the number of a float or an integer are of these forms. -/
theorem exists_float_of_number? {u : Value} {q : ℚ} (hu : u.number? = some q)
    (htype : u.type = .double ∨ u.type = .measure) : ∃ x, floatNumber? x = some q := by
  cases u with
  | double x => exact ⟨x, hu⟩
  | measure x unit => exact ⟨x, hu⟩
  | _ => rcases htype with htype | htype <;> cases htype

/-- **Coercion keeps a number wherever the type asked for has it.** -/
theorem number?_of_coerce? {v w : Value} {type : ValueType} {q : ℚ} (hv : v.number? = some q)
    (h : v.coerce? type = some w) :
    w.number? = some q ↔ ∃ u : Value, u.type = type ∧ u.number? = some q := by
  constructor
  · exact fun hw => ⟨w, type_of_coerce? h, hw⟩
  rintro ⟨u, hu, huq⟩
  unfold coerce? at h
  split at h
  · obtain rfl := Option.some.inj h
    exact hv
  · split at h
    · cases hv
    · cases hv
    · next n _ =>
      obtain rfl := Option.some.inj hv
      obtain ⟨x, hx⟩ := exists_float_of_number? huq (.inl hu)
      obtain rfl := Option.some.inj h
      exact floatNumber?_ofInt hx
    · next n _ =>
      obtain rfl := Option.some.inj hv
      obtain ⟨x, hx⟩ := exists_float_of_number? huq (.inr hu)
      obtain rfl := Option.some.inj h
      exact floatNumber?_ofInt hx
    · obtain rfl := Option.some.inj h
      exact hv
    · obtain rfl := Option.some.inj h
      exact hv
    · obtain ⟨n, hn, rfl⟩ := Option.map_eq_some_iff.1 h
      cases u with
      | integer k =>
        obtain rfl := Option.some.inj huq
        rw [eq_of_wholeNumber? hn hv]
        rfl
      | _ => cases hu
    · cases h

/-- The theorem at a number that both types have. -/
theorem number?_of_coerce?_three :
    ∃ w, (integer 3).coerce? .measure = some w ∧ w.number? = some 3 := by
  have hthree : floatNumber? (Float.ofBits 0x4008000000000000) = some 3 := by
    have hparts : Binary.ofFloat (Float.ofBits 0x4008000000000000) =
        ⟨false, 0x18000000000000, -51, false⟩ := by
      decide +kernel
    refine floatNumber?_eq_some_iff.2 ⟨by decide +kernel, ?_⟩
    rw [hparts, Binary.value]
    norm_num
  have hnumber : (integer 3).number? = some 3 := by
    rw [number?, show (3 : Int64).toInt = 3 by decide]
    norm_num
  have hcoerce : (integer 3).coerce? .measure =
      some (measure (Float.ofInt (3 : Int64).toInt) none) := rfl
  exact ⟨_, hcoerce, (number?_of_coerce? hnumber hcoerce).2 ⟨measure _ none, rfl, hthree⟩⟩

/-- An integer of fifty-four bits is rounded to a double, and the whole number past the last integer
becomes the last integer. -/
theorem coerce?_rounded :
    (∃ w, (integer 9007199254740993).coerce? .double = some w ∧
      (integer 9007199254740993).number? = some 9007199254740993 ∧
      w.number? = some 9007199254740992) ∧
    ∃ w, (double (Float.ofBits 0x43E0000000000000)).coerce? .integer = some w ∧
      (double (Float.ofBits 0x43E0000000000000)).number? = some 9223372036854775808 ∧
      w.number? = some 9223372036854775807 := by
  constructor
  · have hparts : Binary.ofFloat (Float.ofInt (9007199254740993 : Int64).toInt) =
        ⟨false, 0x10000000000000, 1, true⟩ := by
      decide +kernel
    refine ⟨_, rfl, ?_, floatNumber?_eq_some_iff.2 ⟨by decide +kernel, ?_⟩⟩
    · rw [number?, show (9007199254740993 : Int64).toInt = 9007199254740993 by decide]
      norm_num
    · rw [hparts, Binary.value]
      norm_num
  · have hparts : Binary.ofFloat (Float.ofBits 0x43E0000000000000) =
        ⟨false, 0x10000000000000, 11, true⟩ := by
      decide +kernel
    have hwhole : wholeNumber? (Float.ofBits 0x43E0000000000000) =
        some 9223372036854775807 := by
      decide +kernel
    refine ⟨integer 9223372036854775807, ?_, floatNumber?_eq_some_iff.2 ⟨by decide +kernel, ?_⟩, ?_⟩
    · rw [coerce?, if_neg (by decide), hwhole]
      rfl
    · rw [hparts, Binary.value]
      norm_num
    · rw [number?, show (9223372036854775807 : Int64).toInt = 9223372036854775807 by decide]
      norm_num

end CityScene.Value
