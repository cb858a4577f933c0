import Mathlib
import CityScene.Decimal.Binary

/-!
# Floats and the numbers they stand for

`Binary.value` is the rational number that a finite float stands for.  The sign, mantissa and
exponent that `Binary.ofFloat` reads off the bits are those of the library's unpacked floats
(`unpack_eq_unpacked`), so what the library computes can be followed on them.

A mantissa below `2 ^ 53` whose exponent is as low as possible (`Canonical`) comes back unchanged
from packing, and from rounding as well, however many zeros are put behind it
(`roundWithAccuracy_exact`).  Hence an integer that is the value of some float is converted without
loss (`value_ofInt`).
-/

namespace CityScene.Decimal

open Float.Model (UnpackedFloat Format totalExponent)
open Float.Model.UnpackedFloat

/-! ### Values -/

namespace Binary

/-- The number that a finite float stands for. -/
def value (b : Binary) : ℚ :=
  (if b.negative then -(b.m : ℚ) else b.m) * 2 ^ b.q

def sign (b : Binary) : Sign :=
  if b.negative then .negative else .positive

/-- The unpacked float of these parts. -/
def unpacked (b : Binary) : UnpackedFloat :=
  if h : b.m = 0 then .zero b.sign else .finite b.sign b.m b.q (Nat.pos_of_ne_zero h)

end Binary

/-- A mantissa and an exponent as floats have them: all bits of the mantissa are used, or else the
exponent is the lowest there is. -/
structure Canonical (m : Nat) (q : Int) : Prop where
  bits : m < 2 ^ 53
  lowest : -1074 ≤ q
  full : 2 ^ 52 ≤ m ∨ q = -1074

/-! ### Bits -/

section Bits

variable (bits : UInt64)

theorem toNat_unpackSign : (@unpackSign .binary64 bits.toBitVec).toNat =
    bits.toNat / 2 ^ 63 % 2 := by
  simp only [unpackSign, BitVec.toNat_cast, BitVec.extractLsb_toNat, UInt64.toNat_toBitVec,
    Nat.shiftRight_eq_div_pow]

theorem toNat_unpackExponent : (@unpackExponent .binary64 bits.toBitVec).toNat =
    ((bits >>> 52) &&& 0x7FF).toNat := by
  rw [UInt64.toNat_and, UInt64.toNat_shiftRight]
  simp only [unpackExponent, BitVec.toNat_cast, BitVec.extractLsb_toNat, UInt64.toNat_toBitVec]
  exact (Nat.and_two_pow_sub_one_eq_mod _ 11).symm

theorem toNat_unpackMantissa : (@unpackMantissa .binary64 bits.toBitVec).toNat =
    (bits &&& 0xFFFFFFFFFFFFF).toNat := by
  rw [UInt64.toNat_and]
  simp only [unpackMantissa, BitVec.toNat_cast, BitVec.extractLsb_toNat, UInt64.toNat_toBitVec]
  exact (Nat.and_two_pow_sub_one_eq_mod _ 52).symm

theorem ofBitVec_unpackSign : Sign.ofBitVec (@unpackSign .binary64 bits.toBitVec) =
    if bits >>> 63 == 1 then .negative else .positive := by
  have hlt : bits.toNat < 2 ^ 64 := bits.toNat_lt
  have hshift : (bits >>> 63).toNat = bits.toNat / 2 ^ 63 := by
    rw [UInt64.toNat_shiftRight, Nat.shiftRight_eq_div_pow]
    rfl
  have hone : (bits >>> 63 == 1) = true ↔ bits.toNat / 2 ^ 63 = 1 := by
    rw [beq_iff_eq, ← UInt64.toNat_inj, hshift, UInt64.toNat_one]
  have hzero : @unpackSign .binary64 bits.toBitVec = 0#1 ↔ bits.toNat / 2 ^ 63 % 2 = 0 := by
    rw [← BitVec.toNat_inj, toNat_unpackSign]
    rfl
  rw [Sign.ofBitVec]
  by_cases hnegative : bits.toNat / 2 ^ 63 = 1
  · rw [if_neg (by rw [hzero]; omega), if_pos (hone.2 hnegative)]
  · rw [if_pos (by rw [hzero]; omega), if_neg (by rw [hone]; exact hnegative)]

/-- The mantissa with its leading bit. -/
theorem toNat_one_append (v : BitVec 52) : (1#1 ++ v).toNat = 2 ^ 52 + v.toNat := by
  rw [BitVec.toNat_append, ← Nat.shiftLeft_add_eq_or_of_lt v.isLt]
  rfl

theorem finite_congr {s : Sign} {m m' : Nat} {q q' : Int} {hm : 0 < m} {hm' : 0 < m'}
    (h : m = m') (hq : q = q') : UnpackedFloat.finite s m q hm = .finite s m' q' hm' := by
  subst h hq
  rfl

/-- **The parts read off the bits** are those of the library's unpacked float. -/
theorem unpack_eq_unpacked (h : (unpack .binary64 bits.toBitVec).isFinite = true) :
    unpack .binary64 bits.toBitVec = (Binary.ofBits bits).unpacked := by
  have hexponent := toNat_unpackExponent bits
  have hmantissa := toNat_unpackMantissa bits
  have hbias : (Format.exponentBias .binary64 : Int) + (52 : Nat) = 1075 := rfl
  have hfield : @unpackExponent .binary64 bits.toBitVec = 0#_ ↔
      ((bits >>> 52) &&& 0x7FF).toNat = 0 := by
    rw [← hexponent, ← BitVec.toNat_inj]
    rfl
  have hfraction : @unpackMantissa .binary64 bits.toBitVec = 0#_ ↔
      (bits &&& 0xFFFFFFFFFFFFF).toNat = 0 := by
    rw [← hmantissa, ← BitVec.toNat_inj]
    rfl
  unfold unpack at h ⊢
  dsimp only at h ⊢
  rw [ofBitVec_unpackSign] at h ⊢
  by_cases hones : @unpackExponent .binary64 bits.toBitVec = -1#_
  · rw [if_pos hones] at h
    split at h <;> cases h
  rw [if_neg hones, Binary.ofBits, Binary.unpacked, Binary.sign]
  dsimp only
  by_cases hzero : ((bits >>> 52) &&& 0x7FF).toNat = 0
  · simp only [if_pos hzero, if_pos (hfield.2 hzero)]
    by_cases hempty : (bits &&& 0xFFFFFFFFFFFFF).toNat = 0
    · rw [dif_pos hempty, dif_pos (hfraction.2 hempty)]
    · rw [dif_neg hempty, dif_neg (mt hfraction.1 hempty)]
      exact finite_congr hmantissa (by omega)
  · simp only [if_neg hzero, if_neg (mt hfield.1 hzero)]
    rw [dif_neg (by omega)]
    exact finite_congr (by rw [toNat_one_append, hmantissa]; rfl) (by omega)

theorem canonical_ofBits : Canonical (Binary.ofBits bits).m (Binary.ofBits bits).q := by
  have hfraction : (bits &&& 0xFFFFFFFFFFFFF).toNat < 2 ^ 52 := by
    rw [← toNat_unpackMantissa]
    exact BitVec.isLt _
  unfold Binary.ofBits
  dsimp only
  split
  · exact ⟨by dsimp only; omega, by dsimp only; omega, .inr rfl⟩
  · exact ⟨by dsimp only; omega, by dsimp only; omega, .inl (by dsimp only; omega)⟩

end Bits

/-! ### Packing -/

theorem ofBitVec_unpackSign_packComponents (s : Sign) (e : BitVec 11) (v : BitVec 52) :
    Sign.ofBitVec (unpackSign (packComponents .binary64 s e v)) = s := by
  simp only [unpackSign, packComponents, BitVec.extractLsb]
  rw [BitVec.extractLsb'_append_eq_of_le (by omega), BitVec.extractLsb'_append_eq_of_le (by omega)]
  cases s <;> rfl

theorem unpack_normal (s : Sign) {e : BitVec 11} (v : BitVec 52) (hones : e ≠ -1#11)
    (hzero : e ≠ 0#11) : ∃ h, unpack .binary64 (packComponents .binary64 s e v) =
      .finite s (2 ^ 52 + v.toNat) ((e.toNat : Int) - 1075) h := by
  have hbias : (Format.exponentBias .binary64 : Int) + (52 : Nat) = 1075 := rfl
  refine ⟨by positivity, ?_⟩
  unfold unpack
  simp only [unpackMantissa_packComponents, unpackExponent_packComponents,
    ofBitVec_unpackSign_packComponents]
  rw [if_neg hones, if_neg hzero]
  exact finite_congr (toNat_one_append v) (by rw [hbias])

theorem unpack_subnormal (s : Sign) {v : BitVec 52} (hv : v ≠ 0#52) :
    ∃ h, unpack .binary64 (packComponents .binary64 s 0#11 v) = .finite s v.toNat (-1074) h := by
  have hbias : (Format.exponentBias .binary64 : Int) + (52 : Nat) = 1075 := rfl
  have hpos : 0 < v.toNat := by
    rcases Nat.eq_zero_or_pos v.toNat with hzero | hpos
    · exact absurd (BitVec.toNat_inj.1 hzero) hv
    · exact hpos
  refine ⟨hpos, ?_⟩
  unfold unpack
  simp only [unpackMantissa_packComponents, unpackExponent_packComponents,
    ofBitVec_unpackSign_packComponents]
  rw [if_neg (by decide), if_pos trivial, dif_neg hv]
  exact finite_congr rfl (by rw [hbias]; rfl)

/-- **A canonical mantissa and exponent come back from packing**, if the exponent is not too high
for a float. -/
theorem unpack_pack (s : Sign) {m : Nat} {q : Int} (hm : 0 < m) (h : Canonical m q) (hq : q ≤ 971) :
    unpack .binary64 (pack .binary64 (.finite s m q hm)) = .finite s m q hm := by
  have hlowest := h.lowest
  have hbits := h.bits
  have hbias : (Format.exponentBias .binary64 : Int) + (52 : Nat) = 1075 := rfl
  have hwidth : Format.mantissaBits .binary64 = 53 := rfl
  obtain ⟨biased, hbiased⟩ : ∃ biased : Nat, q + 1075 = biased := ⟨(q + 1075).toNat, by omega⟩
  have htoNat : (q + (Format.exponentBias .binary64 : Int) + (52 : Nat)).toNat = biased := by omega
  have hexponent : (BitVec.ofNat 11 biased).toNat = biased := by
    rw [BitVec.toNat_ofNat, Nat.mod_eq_of_lt (by omega)]
  have hfits : ¬ 2 ^ Format.exponentBits .binary64 ≤ biased + 1 := by
    have hcapacity : 2 ^ Format.exponentBits .binary64 = 2048 := rfl
    omega
  rw [pack]
  dsimp only
  rw [htoNat, if_neg hfits, hwidth]
  by_cases hfull : 2 ^ 52 ≤ m
  · have hlog : m.log2 + 1 = 53 := by
      have hlow : 52 ≤ m.log2 := (Nat.le_log2 (by omega)).2 hfull
      have hhigh : m.log2 < 53 := (Nat.log2_lt (by omega)).2 hbits
      omega
    have hones : BitVec.ofNat 11 biased ≠ -1#11 := by
      intro heq
      have htoNat := congrArg BitVec.toNat heq
      rw [hexponent] at htoNat
      have hall : (-1#11).toNat = 2047 := rfl
      omega
    have hzero : BitVec.ofNat 11 biased ≠ 0#11 := by
      intro heq
      have htoNat := congrArg BitVec.toNat heq
      rw [hexponent, BitVec.toNat_zero] at htoNat
      omega
    have hfraction : (BitVec.ofNat 52 m).toNat = m - 2 ^ 52 := by
      rw [BitVec.toNat_ofNat]
      omega
    rw [if_pos hlog]
    obtain ⟨hpos, hunpack⟩ := unpack_normal s (BitVec.ofNat 52 m) hones hzero
    refine hunpack.trans (finite_congr ?_ ?_)
    · omega
    · omega
  · obtain rfl : q = -1074 := h.full.resolve_left hfull
    have hlog : ¬ m.log2 + 1 = 53 := by
      have hhigh : m.log2 < 52 := (Nat.log2_lt (by omega)).2 (by omega)
      omega
    have hfraction : (BitVec.ofNat 52 m).toNat = m := by
      rw [BitVec.toNat_ofNat, Nat.mod_eq_of_lt (by omega)]
    have hne : BitVec.ofNat 52 m ≠ 0#52 := by
      intro heq
      have htoNat := congrArg BitVec.toNat heq
      rw [hfraction, BitVec.toNat_zero] at htoNat
      omega
    rw [if_neg hlog]
    obtain ⟨hpos, hunpack⟩ := unpack_subnormal s hne
    exact hunpack.trans (finite_congr hfraction rfl)

/-! ### Rounding what needs none -/

theorem log2_mul_two_pow {m : Nat} (hm : 0 < m) (k : Nat) : (m * 2 ^ k).log2 = m.log2 + k := by
  induction k with
  | zero => simp
  | succ k ih =>
    have hpos : m * 2 ^ k ≠ 0 := by positivity
    rw [Nat.pow_succ', ← Nat.mul_assoc, Nat.mul_comm m 2, Nat.mul_assoc, Nat.log2_two_mul hpos, ih]
    rfl

/-- Shifting back the zeros behind a mantissa leaves nothing over. -/
theorem shiftRight_exact (m k : Nat) :
    (⟨m * 2 ^ k, false, false⟩ : ExtendedMantissa) >>> k = ⟨m, false, false⟩ := by
  show k.repeat ExtendedMantissa.shiftRightOne _ = _
  induction k generalizing m with
  | zero => simp [Nat.repeat]
  | succ k ih =>
    have hstep := ih (m * 2)
    rw [Nat.repeat, Nat.pow_succ', ← Nat.mul_assoc, hstep]
    simp [ExtendedMantissa.shiftRightOne]

variable {m : Nat} {q : Int}

theorem Canonical.targetExponent_eq (h : Canonical m q) (hm : 0 < m) (k : Nat) :
    Format.targetExponent .binary64 (totalExponent (m * 2 ^ k) (q - k)) = q := by
  have hhigh : m.log2 < 53 := (Nat.log2_lt (by omega)).2 h.bits
  have hlowest : Format.minExponent .binary64 = -1074 := by rfl
  have hwidth : Format.mantissaBits .binary64 = 53 := rfl
  rw [totalExponent, log2_mul_two_pow hm, Format.targetExponent, hlowest, hwidth]
  rcases h.full with hfull | rfl
  · have hlow : 52 ≤ m.log2 := (Nat.le_log2 (by omega)).2 hfull
    have hq := h.lowest
    omega
  · omega

/-- **A canonical mantissa is not rounded**, however many zeros are put behind it. -/
theorem roundWithAccuracy_exact (s : Sign) (hm : 0 < m) (h : Canonical m q) (k : Nat) :
    roundWithAccuracy .binary64 s (m * 2 ^ k) (q - k) .exact = .finite s m q hm := by
  have hshift (j : Nat) : shiftToTargetExponent .binary64 (m * 2 ^ j) (q - j) .exact =
      (⟨m, false, false⟩, q) := by
    have hamount : (q - (q - (j : Int))).toNat = j := by omega
    have hsum : q - (j : Int) + j = q := by omega
    rw [shiftToTargetExponent, h.targetExponent_eq hm, shiftToExponent, hamount, hsum,
      ExtendedMantissa.ofMantissaAndAccuracy, shiftRight_exact]
  have hagain := hshift 0
  rw [Nat.pow_zero, Nat.mul_one, Int.natCast_zero, Int.sub_zero] at hagain
  have hrounded : (⟨m, false, false⟩ : ExtendedMantissa).roundedMantissa = m := rfl
  rw [roundWithAccuracy, hshift k]
  dsimp only
  rw [hrounded, hagain]
  exact dif_neg (by dsimp only; omega)

/-- A whole number that is a mantissa without the zeros at its end. -/
theorem round_exact {n k : Nat} (hm : 0 < m) (h : Canonical m q) (hn : n * 2 ^ k = m)
    (hq : q = -(k : Int)) :
    UnpackedFloat.round .binary64 .positive n 0 = .finite .positive m q hm := by
  have hpos : 0 < n := by
    rcases Nat.eq_zero_or_pos n with rfl | hpos
    · omega
    · exact hpos
  have htarget : Format.targetExponent .binary64 (totalExponent n 0) = q := by
    have hm' := h.targetExponent_eq hm 0
    have hlog : m.log2 = n.log2 + k := by rw [← hn, log2_mul_two_pow hpos]
    have htotal : totalExponent (m * 2 ^ 0) (q - (0 : Nat)) = totalExponent n 0 := by
      simp only [totalExponent, Nat.pow_zero, Nat.mul_one, hlog]
      omega
    rw [← htotal, hm']
  have hdecrease : decreaseExponent n 0 q = (m, q) := by
    have hamount : (0 - q).toNat = k := by omega
    rw [decreaseExponent, hamount, Nat.shiftLeft_eq, hn, hq, Int.zero_sub]
  have hround := roundWithAccuracy_exact .positive hm h 0
  rw [Nat.pow_zero, Nat.mul_one, Int.natCast_zero, Int.sub_zero] at hround
  rw [UnpackedFloat.round, htarget, hdecrease]
  exact hround

/-! ### Integers as floats -/

theorem natCast_eq_iff {n : Nat} :
    (n : ℚ) = m * 2 ^ q ↔ n * 2 ^ (-q).toNat = m * 2 ^ q.toNat := by
  have htwo : (2 : ℚ) ≠ 0 := by norm_num
  have hq : q = (q.toNat : Int) - ((-q).toNat : Int) := by omega
  have hpow : (2 : ℚ) ^ ((-q).toNat) ≠ 0 := pow_ne_zero _ htwo
  have hsplit : (2 : ℚ) ^ q = 2 ^ q.toNat / 2 ^ (-q).toNat := by
    conv_lhs => rw [hq]
    rw [zpow_sub₀ htwo, zpow_natCast, zpow_natCast]
  rw [hsplit, ← mul_div_assoc, eq_div_iff hpow]
  exact_mod_cast Iff.rfl

/-- A small number is converted, and then multiplied by one. -/
theorem ofNat_small {n : Nat} (hm : 0 < m) (h : Canonical m q) (hq : q ≤ 971)
    (hn : n * 2 ^ (-q).toNat = m * 2 ^ q.toNat) (hsmall : n < 2 ^ 53) :
    Float.ofNat n = Float.ofModel (.pack (.finite .positive m q hm)) := by
  have hnonpos : q ≤ 0 := by
    by_contra hpos
    have hzero : (-q).toNat = 0 := by omega
    obtain ⟨k, hk⟩ : ∃ k, q.toNat = k + 1 := ⟨q.toNat - 1, by omega⟩
    have hfull := h.full.resolve_right (by omega)
    have hlarge : 2 ^ 52 * 2 ≤ m * 2 ^ (k + 1) :=
      Nat.mul_le_mul hfull (Nat.le_self_pow (Nat.succ_ne_zero k) 2)
    rw [hzero, hk, Nat.pow_zero, Nat.mul_one] at hn
    omega
  have hmantissa : n * 2 ^ (-q).toNat = m := by
    have hzero : q.toNat = 0 := by omega
    rwa [hzero, Nat.pow_zero, Nat.mul_one] at hn
  have hpos : 0 < n := by
    rcases Nat.eq_zero_or_pos n with rfl | hpos
    · omega
    · exact hpos
  have hconvert : n.toUInt64.toFloat = Float.ofModel (.pack (.finite .positive m q hm)) := by
    have hnat : n.toUInt64.toNat = n := by
      rw [Nat.toUInt64_eq, UInt64.toNat_ofNat', Nat.mod_eq_of_lt (by omega)]
    have hcompare : compare (n : Int) 0 = .gt := Int.compare_eq_gt.2 (by omega)
    have hround := round_exact hm h hmantissa (by omega)
    show Float.ofModel
      (.pack (UnpackedFloat.normalize .binary64 (n.toUInt64.toNat : Int) 0 .positive)) = _
    rw [hnat, UnpackedFloat.normalize, hcompare]
    dsimp only
    rw [Int.toNat_natCast, hround]
  have hunpack : (Float.Model.pack (.finite .positive m q hm)).unpack = .finite .positive m q hm :=
    unpack_pack .positive hm h hq
  have hone : (Float.ofBits 0x3FF0000000000000).toModel.unpack =
      .finite .positive (2 ^ 52) (-52) (by decide) := by
    rfl
  have hround := roundWithAccuracy_exact .positive hm h 52
  show Float.ofScientific n false 0 = _
  rw [Float.ofScientific, dif_pos ⟨hsmall, by decide⟩, hconvert]
  show Float.ofModel (.pack (mul .binary64 (Float.Model.pack (.finite .positive m q hm)).unpack
    (Float.ofBits 0x3FF0000000000000).toModel.unpack)) = _
  rw [hunpack, hone]
  exact congrArg (fun u => Float.ofModel (.pack u)) hround

/-- A large number has more bits than a mantissa, and the last ones are zeros. -/
theorem ofNat_large {n : Nat} (hm : 0 < m) (h : Canonical m q)
    (hn : n * 2 ^ (-q).toNat = m * 2 ^ q.toNat) (hlarge : 2 ^ 53 ≤ n) :
    Float.ofNat n = Float.ofModel (.pack (.finite .positive m q hm)) := by
  have hpositive : 0 < q := by
    by_contra hnonpos
    have hzero : q.toNat = 0 := by omega
    have hle : n * 1 ≤ n * 2 ^ (-q).toNat := Nat.mul_le_mul_left n Nat.one_le_two_pow
    have hbits := h.bits
    rw [hzero, Nat.pow_zero, Nat.mul_one] at hn
    omega
  obtain ⟨k, rfl⟩ : ∃ k : Nat, q = k := ⟨q.toNat, by omega⟩
  have hzeros : n = m * 2 ^ k := by
    have hnone : (-(k : Int)).toNat = 0 := by omega
    rwa [Int.toNat_natCast, hnone, Nat.pow_zero, Nat.mul_one] at hn
  have hround := roundWithAccuracy_exact .positive hm h (k + 53)
  have hmantissa : m * 2 ^ (k + 53) = n <<< 53 * 10 ^ 0 := by
    rw [Nat.shiftLeft_eq, hzeros, Nat.pow_add]
    ring
  have hexponent : (k : Int) - ((k + 53 : Nat) : Int) = -53 + 0 := by omega
  have hrange : (2 : Int) ^ Format.exponentBits .binary64 = 2048 := rfl
  rw [hmantissa, hexponent] at hround
  show Float.ofScientific n false 0 = _
  rw [Float.ofScientific, dif_neg fun hboth => Nat.not_le_of_lt hboth.1 hlarge]
  show Float.ofModel (.pack (ofScientific .binary64 n 0)) = _
  rw [ofScientific, dif_neg (by omega), if_neg (by decide), hrange, if_neg (by omega),
    if_pos (Int.le_refl 0)]
  exact congrArg (fun u => Float.ofModel (.pack u)) hround

/-- **A natural number that a float has is converted to that float.** -/
theorem ofNat_eq {n : Nat} (hm : 0 < m) (h : Canonical m q) (hq : q ≤ 971)
    (hn : (n : ℚ) = m * 2 ^ q) :
    Float.ofNat n = Float.ofModel (.pack (.finite .positive m q hm)) := by
  rw [natCast_eq_iff] at hn
  rcases Nat.lt_or_ge n (2 ^ 53) with hsmall | hlarge
  · exact ofNat_small hm h hq hn hsmall
  · exact ofNat_large hm h hn hlarge

/-! ### Values of floats -/

/-- A float that unpacks to a mantissa and an exponent stands for what they say. -/
theorem value_of_unpack {x : Float} {s : Sign} {hm : 0 < m}
    (h : x.toModel.unpack = .finite s m q hm) :
    x.isFinite = true ∧ (Binary.ofFloat x).value = (s.apply m : Int) * 2 ^ q := by
  have hfinite : x.toModel.unpack.isFinite = true := by rw [h]; rfl
  have hparts : (Binary.ofFloat x).unpacked = .finite s m q hm :=
    (unpack_eq_unpacked x.toBits hfinite).symm.trans h
  refine ⟨hfinite, ?_⟩
  rw [Binary.unpacked] at hparts
  split at hparts
  · cases hparts
  · obtain ⟨hsign, rfl, rfl⟩ := UnpackedFloat.finite.inj hparts
    rw [Binary.sign] at hsign
    rw [Binary.value, ← hsign]
    split <;> simp [Sign.apply]

/-- The highest exponent is kept for infinities and undefined floats. -/
theorem q_le_of_isFinite {x : Float} (h : x.isFinite = true) : (Binary.ofFloat x).q ≤ 971 := by
  have hfield : ((x.toBits >>> 52) &&& 0x7FF).toNat < 2047 := by
    by_contra hhigh
    have hlt : (@unpackExponent .binary64 x.toBits.toBitVec).toNat < 2 ^ 11 :=
      BitVec.isLt _
    have hones : @unpackExponent .binary64 x.toBits.toBitVec = -1#_ := by
      apply BitVec.eq_of_toNat_eq
      rw [toNat_unpackExponent] at hlt ⊢
      have hall : (-1#11).toNat = 2047 := rfl
      exact (by omega : _ = 2047).trans hall.symm
    have hfinite : (unpack .binary64 x.toBits.toBitVec).isFinite = true := h
    unfold unpack at hfinite
    dsimp only at hfinite
    rw [if_pos hones] at hfinite
    split at hfinite <;> cases hfinite
  rw [Binary.ofFloat, Binary.ofBits]
  dsimp only
  split
  · exact (by decide : (-1074 : Int) ≤ 971)
  · dsimp only
    omega

/-- **An integer that is the value of some float is converted without loss.** -/
theorem value_ofInt {n : Int} {x : Float} (hx : x.isFinite = true)
    (hvalue : (Binary.ofFloat x).value = n) :
    (Float.ofInt n).isFinite = true ∧ (Binary.ofFloat (Float.ofInt n)).value = n := by
  have hcanonical : Canonical (Binary.ofFloat x).m (Binary.ofFloat x).q := canonical_ofBits x.toBits
  have hq := q_le_of_isFinite hx
  have hpow : (0 : ℚ) < 2 ^ (Binary.ofFloat x).q := zpow_pos (by norm_num) _
  rw [Binary.value] at hvalue
  generalize (Binary.ofFloat x).m = m at *
  generalize (Binary.ofFloat x).q = q at *
  have hmagnitude : (0 : ℚ) ≤ m * 2 ^ q := mul_nonneg (Nat.cast_nonneg m) hpow.le
  -- the mantissa of a number other than zero
  have hmantissa {k : Nat} (hk : ((k + 1 : Nat) : ℚ) = m * 2 ^ q) : 0 < m := by
    rcases Nat.eq_zero_or_pos m with rfl | hm
    · rw [Nat.cast_zero, zero_mul] at hk
      exact absurd (Nat.cast_eq_zero.1 hk) (Nat.succ_ne_zero k)
    · exact hm
  cases n with
  | ofNat k =>
    cases k with
    | zero =>
      have hzero : Binary.ofFloat (Float.ofInt (Int.ofNat 0)) = ⟨false, 0, -1074, false⟩ := by rfl
      refine ⟨by rfl, ?_⟩
      rw [hzero, Binary.value]
      simp
    | succ k =>
      have hk : ((k + 1 : Nat) : ℚ) = m * 2 ^ q := by
        have hcast : ((Int.ofNat (k + 1) : Int) : ℚ) = (k + 1 : Nat) := Int.cast_natCast (k + 1)
        have hpositive : (0 : ℚ) < (k + 1 : Nat) := Nat.cast_pos.2 (Nat.succ_pos k)
        rw [hcast] at hvalue
        split at hvalue
        · rw [neg_mul] at hvalue
          linarith
        · exact hvalue.symm
      have hm := hmantissa hk
      have hunpack : (Float.ofInt (Int.ofNat (k + 1))).toModel.unpack =
          .finite .positive m q hm := by
        show (Float.ofNat (k + 1)).toModel.unpack = _
        rw [ofNat_eq hm hcanonical hq hk]
        exact unpack_pack .positive hm hcanonical hq
      obtain ⟨hfinite, hsame⟩ := value_of_unpack hunpack
      exact ⟨hfinite, hsame.trans hk.symm⟩
  | negSucc k =>
    have hcast : ((Int.negSucc k : Int) : ℚ) = -(k + 1 : Nat) := Int.cast_negSucc k
    have hk : ((k + 1 : Nat) : ℚ) = m * 2 ^ q := by
      have hpositive : (0 : ℚ) < (k + 1 : Nat) := Nat.cast_pos.2 (Nat.succ_pos k)
      rw [hcast] at hvalue
      split at hvalue
      · rw [neg_mul] at hvalue
        exact (neg_inj.1 hvalue).symm
      · linarith
    have hm := hmantissa hk
    have hunpack : (Float.ofInt (Int.negSucc k)).toModel.unpack = .finite .negative m q hm := by
      show (Float.Model.pack (Float.ofNat (k + 1)).toModel.unpack.neg).unpack = _
      have hnat : (Float.ofNat (k + 1)).toModel.unpack = .finite .positive m q hm := by
        rw [ofNat_eq hm hcanonical hq hk]
        exact unpack_pack .positive hm hcanonical hq
      rw [hnat]
      exact unpack_pack .negative hm hcanonical hq
    obtain ⟨hfinite, hsame⟩ := value_of_unpack hunpack
    refine ⟨hfinite, hsame.trans ?_⟩
    rw [hcast, hk, Sign.apply, Int.cast_neg, Int.cast_natCast, neg_mul]

/-- **The integer part of a whole number is the number.** -/
theorem value_eq_truncate {b : Binary} (h : b.isWhole = true) : b.value = b.truncate := by
  have hwhole : 2 ^ (-b.q).toNat ∣ b.m := Nat.dvd_of_mod_eq_zero (beq_iff_eq.1 h)
  have hquotient := Nat.div_mul_cancel (hwhole.mul_right (2 ^ b.q.toNat))
  have hmagnitude := natCast_eq_iff.2 hquotient
  rw [Binary.value, Binary.truncate]
  split
  · rw [Int.cast_neg, Int.cast_natCast, neg_mul, ← hmagnitude]
    rfl
  · rw [Int.cast_natCast, ← hmagnitude]
    rfl

end CityScene.Decimal
