import Mathlib.Tactic.Common
import Mathlib.Tactic.Ring
import CityScene.Decimal.Numeral

/-!
# Integers as they are written

`readDigits` accepts a run of decimal digits whose value is within the limit, and nothing else
(`readDigits_eq_ok_iff`).  The value is the library's `Nat.ofDigitChars`, so the digits that the
library writes for a number are read back as that number, with any zeros in front
(`ofDigitChars_zeros_append`).
-/

namespace CityScene.Decimal

/-! ### Digits -/

theorem digitValue?_of_isDigit {c : Char} (h : c.isDigit = true) :
    digitValue? c = some (c.toNat - '0'.toNat) ∧ c.toNat - '0'.toNat < 10 := by
  simp only [Char.isDigit, Bool.and_eq_true_iff, decide_eq_true_iff] at h
  have hlow : 48 ≤ c.toNat := h.1
  have hhigh : c.toNat ≤ 57 := h.2
  have hzero : '0'.toNat = 48 := rfl
  exact ⟨if_pos ⟨h.1, h.2⟩, by omega⟩

theorem isDigit_of_digitValue? {c : Char} {d : Nat} (h : digitValue? c = some d) (hd : d < 10) :
    c.isDigit = true := by
  have hsmall : 'a'.toNat = 97 := rfl
  have hcapital : 'A'.toNat = 65 := rfl
  unfold digitValue? at h
  split at h
  · next hdigit =>
    rw [Char.isDigit, Bool.and_eq_true_iff, decide_eq_true_iff, decide_eq_true_iff]
    exact hdigit
  · split at h
    · obtain rfl := Option.some.inj h
      omega
    · split at h
      · obtain rfl := Option.some.inj h
        omega
      · cases h

/-- **Exactly digits are read, up to the limit**, and their value is that of a decimal number. -/
theorem readDigits_eq_ok_iff {limit : Nat} {excess : IntegerFault} {value n : Nat}
    {cs : List Char} : readDigits 10 limit excess value cs = .ok n ↔
      (∀ c ∈ cs, c.isDigit = true) ∧ Nat.ofDigitChars 10 cs value = n ∧ (cs = [] ∨ n ≤ limit) := by
  induction cs generalizing value with
  | nil => simp [readDigits]
  | cons c cs ih =>
    by_cases hdigit : c.isDigit = true
    · obtain ⟨hvalue, hten⟩ := digitValue?_of_isDigit hdigit
      have hnext : Nat.ofDigitChars 10 (c :: cs) value =
          Nat.ofDigitChars 10 cs (value * 10 + (c.toNat - '0'.toNat)) := by
        rw [Nat.ofDigitChars_cons, Nat.mul_comm]
      -- the value only grows, so it is within the limit at the end if it ever was
      have hgrow : ∀ (l : List Char) (v : Nat), v ≤ Nat.ofDigitChars 10 l v := by
        intro l
        induction l with
        | nil => intro v; exact Nat.le_refl v
        | cons a l ih =>
          intro v
          rw [Nat.ofDigitChars_cons]
          exact le_trans (by omega) (ih _)
      rw [readDigits, hvalue]
      dsimp only
      rw [if_neg (by omega), hnext]
      split
      · next hexcess =>
        have hle := hgrow cs (value * 10 + (c.toNat - '0'.toNat))
        constructor
        · intro h
          cases h
        · rintro ⟨-, rfl, hnil | hlimit⟩
          · cases hnil
          · omega
      · next hwithin =>
        rw [ih]
        constructor
        · rintro ⟨hrest, rfl, hlimit⟩
          refine ⟨List.forall_mem_cons.2 ⟨hdigit, hrest⟩, rfl, .inr ?_⟩
          rcases hlimit with rfl | hlimit
          · exact Nat.le_of_not_lt hwithin
          · exact hlimit
        · rintro ⟨hall, rfl, hlimit⟩
          exact ⟨(List.forall_mem_cons.1 hall).2, rfl, .inr (hlimit.resolve_left nofun)⟩
    · have hrefused : readDigits 10 limit excess value (c :: cs) = .error .invalidDigit := by
        rw [readDigits]
        split
        · rfl
        · next d hd =>
          rw [if_pos]
          by_contra hsmall
          exact hdigit (isDigit_of_digitValue? hd (by omega))
      rw [hrefused]
      exact ⟨nofun, fun h => absurd (List.forall_mem_cons.1 h.1).1 hdigit⟩

theorem ofDigitChars_lt {cs : List Char} (h : ∀ c ∈ cs, c.isDigit = true) (value : Nat) :
    Nat.ofDigitChars 10 cs value < (value + 1) * 10 ^ cs.length := by
  induction cs generalizing value with
  | nil => simp
  | cons c cs ih =>
    obtain ⟨hc, hcs⟩ := List.forall_mem_cons.1 h
    have hten := (digitValue?_of_isDigit hc).2
    rw [Nat.ofDigitChars_cons, List.length_cons, Nat.pow_succ]
    calc Nat.ofDigitChars 10 cs (10 * value + (c.toNat - '0'.toNat))
        < (10 * value + (c.toNat - '0'.toNat) + 1) * 10 ^ cs.length := ih hcs _
      _ ≤ (value + 1) * 10 * 10 ^ cs.length := Nat.mul_le_mul_right _ (by omega)
      _ = (value + 1) * (10 ^ cs.length * 10) := by ring

/-- Zeros in front make no difference. -/
theorem ofDigitChars_zeros_append (zeros n : Nat) :
    Nat.ofDigitChars 10 (List.replicate zeros '0' ++ Nat.toDigits 10 n) 0 = n := by
  rw [Nat.ofDigitChars_append, Nat.ofDigitChars_replicate_zero, Nat.mul_zero,
    Nat.ofDigitChars_ten_toDigits]

theorem isDigit_of_mem_zeros_append {zeros n : Nat} {c : Char}
    (h : c ∈ List.replicate zeros '0' ++ Nat.toDigits 10 n) : c.isDigit = true := by
  rcases List.mem_append.1 h with h | h
  · rw [List.eq_of_mem_replicate h]
    rfl
  · exact Nat.isDigit_of_mem_toDigits (by decide) (by decide) h

/-! ### Signs -/

/-- A number without a minus is a run of digits, perhaps after a plus. -/
theorem digits_of_readCount? {limit n : Nat} {cs : List Char} (h : readCount? limit cs = some n) :
    ∃ digits, (cs = digits ∨ cs = '+' :: digits) ∧ digits ≠ [] ∧
      (∀ c ∈ digits, c.isDigit = true) ∧ Nat.ofDigitChars 10 digits 0 = n ∧ n ≤ limit := by
  have hnatural {digits : List Char} (hread : (readNatural 10 limit digits).toOption = some n) :
      digits ≠ [] ∧ (∀ c ∈ digits, c.isDigit = true) ∧ Nat.ofDigitChars 10 digits 0 = n ∧
        n ≤ limit := by
    unfold readNatural at hread
    split at hread
    · cases hread
    · next hempty =>
      have hne : digits ≠ [] := by simpa using hempty
      cases hdigits : readDigits 10 limit .tooLarge 0 digits with
      | error fault => rw [hdigits] at hread; cases hread
      | ok m =>
        rw [hdigits] at hread
        obtain rfl := Option.some.inj hread
        obtain ⟨hall, hvalue, hlimit⟩ := readDigits_eq_ok_iff.1 hdigits
        exact ⟨hne, hall, hvalue, hlimit.resolve_left hne⟩
  unfold readCount? at h
  dsimp only at h
  split at h
  · exact ⟨_, .inr rfl, hnatural h⟩
  · exact ⟨cs, .inl rfl, hnatural h⟩

theorem readCount?_of_digits {limit : Nat} {cs : List Char} (hne : cs ≠ [])
    (hdigits : ∀ c ∈ cs, c.isDigit = true) (hlimit : Nat.ofDigitChars 10 cs 0 ≤ limit) :
    readCount? limit cs = some (Nat.ofDigitChars 10 cs 0) := by
  have hread : readNatural 10 limit cs = .ok (Nat.ofDigitChars 10 cs 0) := by
    rw [readNatural, if_neg (by simpa using hne)]
    exact readDigits_eq_ok_iff.2 ⟨hdigits, rfl, .inr hlimit⟩
  unfold readCount?
  dsimp only
  split
  · exact absurd (hdigits '+' List.mem_cons_self) (by decide)
  · rw [hread]
    rfl

/-- A number that has no minus is a run of digits, perhaps after a plus. -/
theorem digits_of_readInteger {limit : Nat} {cs : List Char} {n : Int}
    (h : readInteger limit cs = .ok n) (hminus : '-' ∉ cs) :
    ∃ digits, (cs = digits ∨ cs = '+' :: digits) ∧
      (∀ c ∈ digits, c.isDigit = true) ∧ n = Nat.ofDigitChars 10 digits 0 := by
  have hdigits {digits : List Char}
      (hread : (readDigits 10 limit .tooLarge 0 digits).map Int.ofNat = .ok n) :
      (∀ c ∈ digits, c.isDigit = true) ∧ n = Nat.ofDigitChars 10 digits 0 := by
    cases hvalue : readDigits 10 limit .tooLarge 0 digits with
    | error fault => rw [hvalue] at hread; cases hread
    | ok m =>
      rw [hvalue] at hread
      obtain ⟨hall, hm, -⟩ := readDigits_eq_ok_iff.1 hvalue
      exact ⟨hall, (Except.ok.inj hread).symm.trans (congrArg Int.ofNat hm.symm)⟩
  unfold readInteger at h
  split at h
  · cases h
  · cases h
  · cases h
  · exact absurd List.mem_cons_self hminus
  · exact ⟨_, .inr rfl, hdigits h⟩
  · exact ⟨cs, .inl rfl, hdigits h⟩

theorem readInteger_of_digits {limit : Nat} {cs : List Char} (hne : cs ≠ [])
    (hdigits : ∀ c ∈ cs, c.isDigit = true) (hlimit : Nat.ofDigitChars 10 cs 0 ≤ limit) :
    readInteger limit cs = .ok (Nat.ofDigitChars 10 cs 0) := by
  have hread : readDigits 10 limit .tooLarge 0 cs = .ok (Nat.ofDigitChars 10 cs 0) :=
    readDigits_eq_ok_iff.2 ⟨hdigits, rfl, .inr hlimit⟩
  unfold readInteger
  split
  · exact absurd rfl hne
  · exact absurd (hdigits '+' List.mem_cons_self) (by decide)
  · exact absurd (hdigits '-' List.mem_cons_self) (by decide)
  · exact absurd (hdigits '-' List.mem_cons_self) (by decide)
  · exact absurd (hdigits '+' List.mem_cons_self) (by decide)
  · rw [hread]
    rfl

end CityScene.Decimal
