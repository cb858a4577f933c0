import Mathlib.Data.List.TakeWhile
import CityScene.Text.Utf8

/-!
# Texts and their bytes

Every text is read back from its bytes (`decodeUtf8_encode`).  The bytes of one character are a
first byte that tells how many there are, and further ones that carry six bits each.
`decodeFrom_sequence` says when such a sequence is taken as one character, and the rest is
arithmetic on the code point.

A byte below 128 stands for its character only (`mem_encode_iff`), so a text without a character of
ASCII has no byte of it either.
-/

namespace CityScene.Text

/-- The bytes of a text. -/
def encode (cs : List Char) : List UInt8 :=
  cs.flatMap String.utf8EncodeChar

@[simp]
theorem encode_nil : encode [] = [] := rfl

@[simp]
theorem encode_cons (c : Char) (cs : List Char) :
    encode (c :: cs) = String.utf8EncodeChar c ++ encode cs := rfl

@[simp]
theorem encode_append (cs cs' : List Char) : encode (cs ++ cs') = encode cs ++ encode cs' :=
  List.flatMap_append

/-! ### Bytes of strings -/

theorem toList_loop (bytes : ByteArray) (i : Nat) (read : List UInt8) :
    ByteArray.toList.loop bytes i read = read.reverse ++ bytes.data.toList.drop i := by
  fun_induction ByteArray.toList.loop bytes i read with
  | case1 i read h ih =>
    have hi : i < bytes.data.toList.length := h
    have hbyte : bytes.get! i = bytes.data.toList[i] := by
      rw [Array.getElem_toList]
      exact getElem!_pos bytes.data i h
    rw [ih, List.drop_eq_getElem_cons hi, List.reverse_cons, List.append_assoc, hbyte]
    rfl
  | case2 i read h =>
    rw [List.drop_eq_nil_of_le (Nat.le_of_not_lt h), List.append_nil]

theorem toList_toUTF8 (s : String) : s.toUTF8.toList = encode s.toList := by
  rw [ByteArray.toList, toList_loop, String.toUTF8_eq_toByteArray, ← String.utf8Encode_toList,
    List.utf8Encode, List.toList_data_toByteArray]
  rfl

namespace Utf8

/-! ### Bytes as numbers -/

variable {x y : Nat}

theorem lengthFrom_ofNat (h : x < 256) : lengthFrom (.ofNat x) =
    if x < 0x80 then some 1 else if x < 0xC2 then none else if x < 0xE0 then some 2
    else if x < 0xF0 then some 3 else if x < 0xF5 then some 4 else none := by
  simp only [lengthFrom, UInt8.lt_iff_toNat_lt, UInt8.toNat_ofNat_of_lt' h]
  rfl

theorem isTail_ofNat (h : x < 256) : isTail (.ofNat x) = true ↔ 0x80 ≤ x ∧ x ≤ 0xBF := by
  simp only [isTail, Bool.and_eq_true, decide_eq_true_eq, UInt8.le_iff_toNat_le, UInt8.toNat_ofNat_of_lt' h]
  rfl

theorem isSecond_ofNat (hx : x < 256) (hy : y < 256) (htail : 0x80 ≤ y ∧ y ≤ 0xBF)
    (hE0 : x = 0xE0 → 0xA0 ≤ y) (hF0 : x = 0xF0 → 0x90 ≤ y) (hED : x = 0xED → y ≤ 0x9F)
    (hF4 : x = 0xF4 → y ≤ 0x8F) : isSecond (.ofNat x) (.ofNat y) = true := by
  have hbyte (k : UInt8) : (UInt8.ofNat x == k) = true ↔ x = k.toNat := by
    rw [beq_iff_eq, ← UInt8.toNat_inj, UInt8.toNat_ofNat_of_lt' hx]
  simp only [isSecond, hbyte, Bool.and_eq_true, decide_eq_true_eq, UInt8.le_iff_toNat_le,
    UInt8.toNat_ofNat_of_lt' hy]
  constructor
  · split
    · next h => exact hE0 h
    · split
      · next h => exact hF0 h
      · exact htail.1
  · split
    · next h => exact hED h
    · split
      · next h => exact hF4 h
      · exact htail.2

/-! ### Sequences -/

theorem goodTail_sequence {a : UInt8} {tail : List UInt8} (rest : List UInt8)
    (hsecond : ∀ b ∈ tail.head?, isSecond a b = true) (htail : ∀ b ∈ tail.tail, isTail b = true) :
    goodTail a tail.length (tail ++ rest) = tail.length := by
  cases tail with
  | nil => cases rest <;> rfl
  | cons b more =>
    have hb : isSecond a b = true := hsecond b rfl
    have htake : ((more ++ rest).take more.length).takeWhile isTail = more := by
      rw [List.take_left]
      exact List.takeWhile_eq_self_iff.2 htail
    rw [List.cons_append, goodTail, List.length_cons, Nat.add_sub_cancel, htake, hb]
    simp [Nat.add_comm]

/-- A first byte that tells the length, and bytes that continue it. -/
structure IsSequence (a : UInt8) (tail : List UInt8) : Prop where
  length : lengthFrom a = some (tail.length + 1)
  second : ∀ b ∈ tail.head?, isSecond a b = true
  tail : ∀ b ∈ tail.tail, isTail b = true

/-- **A sequence of bytes is taken as one character.** -/
theorem decodeFrom_sequence {a : UInt8} {tail : List UInt8} (h : IsSequence a tail) (index : Nat)
    (read : List Char) (rest : List UInt8) : decodeFrom index read (a :: (tail ++ rest)) =
      decodeFrom (index + (tail.length + 1)) (Char.ofNat (codePoint a tail) :: read) rest := by
  have hgood := goodTail_sequence rest h.second h.tail
  rw [decodeFrom, h.length]
  simp only [Nat.add_sub_cancel, hgood, if_pos, List.take_left, List.drop_left]

/-- A byte that carries six bits. -/
def IsCarrier (y : Nat) : Prop :=
  0x80 ≤ y ∧ y ≤ 0xBF

theorem IsCarrier.lt (h : IsCarrier y) : y < 256 :=
  Nat.lt_of_le_of_lt h.2 (by decide)

theorem IsCarrier.isTail (h : IsCarrier y) : isTail (.ofNat y) = true :=
  (isTail_ofNat h.lt).2 h

theorem isSequence_one (hx : x < 0x80) : IsSequence (.ofNat x) [] where
  length := by rw [lengthFrom_ofNat (by omega), if_pos hx, List.length_nil]
  second := by simp
  tail := by simp

theorem isSequence_two (hx : 0xC2 ≤ x) (hx' : x < 0xE0) (hy : IsCarrier y) :
    IsSequence (.ofNat x) [.ofNat y] where
  length := by
    rw [lengthFrom_ofNat (by omega), if_neg (by omega), if_neg (by omega), if_pos hx']
    rfl
  second b hb := by
    obtain rfl : UInt8.ofNat y = b := by simpa using hb
    exact isSecond_ofNat (by omega) hy.lt hy (by omega) (by omega) (by omega) (by omega)
  tail := by simp

theorem isSequence_three {z : Nat} (hx : 0xE0 ≤ x) (hx' : x < 0xF0) (hy : IsCarrier y)
    (hfirst : x = 0xE0 → 0xA0 ≤ y) (hsurrogate : x = 0xED → y ≤ 0x9F) (hz : IsCarrier z) :
    IsSequence (.ofNat x) [.ofNat y, .ofNat z] where
  length := by
    rw [lengthFrom_ofNat (by omega), if_neg (by omega), if_neg (by omega), if_neg (by omega),
      if_pos hx']
    rfl
  second b hb := by
    obtain rfl : UInt8.ofNat y = b := by simpa using hb
    exact isSecond_ofNat (by omega) hy.lt hy hfirst (by omega) hsurrogate (by omega)
  tail b hb := by
    obtain rfl : b = UInt8.ofNat z := by simpa using hb
    exact hz.isTail

theorem isSequence_four {z u : Nat} (hx : 0xF0 ≤ x) (hx' : x < 0xF5) (hy : IsCarrier y)
    (hfirst : x = 0xF0 → 0x90 ≤ y) (hlast : x = 0xF4 → y ≤ 0x8F) (hz : IsCarrier z)
    (hu : IsCarrier u) : IsSequence (.ofNat x) [.ofNat y, .ofNat z, .ofNat u] where
  length := by
    rw [lengthFrom_ofNat (by omega), if_neg (by omega), if_neg (by omega), if_neg (by omega),
      if_neg (by omega), if_pos hx']
    rfl
  second b hb := by
    obtain rfl : UInt8.ofNat y = b := by simpa using hb
    exact isSecond_ofNat (by omega) hy.lt hy (by omega) hfirst (by omega) hlast
  tail b hb := by
    obtain rfl | rfl : b = UInt8.ofNat z ∨ b = UInt8.ofNat u := by simpa using hb
    · exact hz.isTail
    · exact hu.isTail

/-- Six bits in a byte of their own. -/
theorem isCarrier_bits (v : Nat) : IsCarrier (v % 64 + 0x80) := by
  unfold IsCarrier
  omega

/-- **The bytes of a character are a sequence with its code point.** -/
theorem exists_sequence (c : Char) : ∃ a tail, String.utf8EncodeChar c = a :: tail ∧
    IsSequence a tail ∧ codePoint a tail = c.toNat := by
  have hvalid : c.val.toNat < 0xD800 ∨ 0xDFFF < c.val.toNat ∧ c.val.toNat < 0x110000 := c.valid
  rw [String.utf8EncodeChar, show c.toNat = c.val.toNat from rfl]
  generalize c.val.toNat = v at hvalid ⊢
  split_ifs with h1 h2 h3
  · refine ⟨_, [], rfl, isSequence_one (by omega), ?_⟩
    simp only [codePoint, List.length_nil, List.foldl_nil, UInt8.toNat_ofNat']
    omega
  · refine ⟨_, [_], rfl, isSequence_two (by omega) (by omega) (isCarrier_bits _), ?_⟩
    simp only [codePoint, List.length_cons, List.length_nil, List.foldl_cons,
      List.foldl_nil, UInt8.toNat_ofNat']
    omega
  · refine ⟨_, [_, _], rfl, isSequence_three (by omega) (by omega) (isCarrier_bits _) (by omega)
      (by omega) (isCarrier_bits _), ?_⟩
    simp only [codePoint, List.length_cons, List.length_nil, List.foldl_cons,
      List.foldl_nil, UInt8.toNat_ofNat']
    omega
  · refine ⟨_, [_, _, _], rfl, isSequence_four (by omega) (by omega) (isCarrier_bits _) (by omega)
      (by omega) (isCarrier_bits _) (isCarrier_bits _), ?_⟩
    simp only [codePoint, List.length_cons, List.length_nil, List.foldl_cons,
      List.foldl_nil, UInt8.toNat_ofNat']
    omega

theorem decodeFrom_char (c : Char) (index : Nat) (read : List Char) (rest : List UInt8) :
    decodeFrom index read (String.utf8EncodeChar c ++ rest) =
      decodeFrom (index + (String.utf8EncodeChar c).length) (c :: read) rest := by
  obtain ⟨a, tail, hbytes, hsequence, hpoint⟩ := exists_sequence c
  rw [hbytes, List.cons_append, decodeFrom_sequence hsequence, hpoint, Char.ofNat_toNat,
    List.length_cons]

theorem decodeFrom_encode (cs : List Char) (index : Nat) (read : List Char) :
    decodeFrom index read (encode cs) = .ok (read.reverse ++ cs) := by
  induction cs generalizing index read with
  | nil => rw [encode_nil, decodeFrom, List.append_nil]
  | cons c cs ih =>
    rw [encode_cons, decodeFrom_char, ih, List.reverse_cons, List.append_assoc]
    rfl

end Utf8

/-- **A text is read back from its bytes.** -/
theorem decodeUtf8_encode (cs : List Char) : decodeUtf8 (encode cs) = .ok (String.ofList cs) := by
  rw [decodeUtf8, Utf8.decodeFrom_encode]
  rfl

/-- A text with a character has a byte. -/
theorem exists_encode_cons (c : Char) (cs : List Char) : ∃ b rest, encode (c :: cs) = b :: rest := by
  obtain ⟨b, tail, hbytes, -⟩ := Utf8.exists_sequence c
  exact ⟨b, tail ++ encode cs, by rw [encode_cons, hbytes, List.cons_append]⟩

/-! ### Characters of ASCII -/

variable {c d : Char}

theorem toNat_toUInt8 (h : c.toNat < 0x80) : c.toUInt8.toNat = c.toNat :=
  UInt8.toNat_ofNat_of_lt' (Nat.lt_trans h (by decide))

theorem utf8EncodeChar_of_ascii (h : c.toNat < 0x80) : String.utf8EncodeChar c = [c.toUInt8] :=
  if_pos (Nat.le_of_lt_succ h)

/-- Neither the first byte of any other character nor those after it are characters of ASCII. -/
theorem le_of_mem_utf8EncodeChar (hc : 0x80 ≤ c.toNat) {b : UInt8}
    (h : b ∈ String.utf8EncodeChar c) : 0x80 ≤ b.toNat := by
  have hlarge : ¬ c.val.toNat ≤ 0x7F := Nat.not_le.2 hc
  have hmarked (v k : Nat) (hk : 0x80 ≤ k) (hsum : v + k < 256) :
      0x80 ≤ (UInt8.ofNat (v + k)).toNat := by
    rw [UInt8.toNat_ofNat_of_lt' hsum]
    omega
  have hcarrier (v : Nat) : 0x80 ≤ (UInt8.ofNat (v % 64 + 0x80)).toNat :=
    hmarked _ _ (Nat.le_refl _) (by omega)
  rw [String.utf8EncodeChar, if_neg hlarge] at h
  split_ifs at h <;> simp only [List.mem_cons, List.not_mem_nil, or_false] at h
  · rcases h with rfl | rfl
    · exact hmarked _ _ (by decide) (by omega)
    · exact hcarrier _
  · rcases h with rfl | rfl | rfl
    · exact hmarked _ _ (by decide) (by omega)
    · exact hcarrier _
    · exact hcarrier _
  · rcases h with rfl | rfl | rfl | rfl
    · exact hmarked _ _ (by decide) (by omega)
    · exact hcarrier _
    · exact hcarrier _
    · exact hcarrier _

theorem mem_utf8EncodeChar_iff (hd : d.toNat < 0x80) :
    d.toUInt8 ∈ String.utf8EncodeChar c ↔ d = c := by
  by_cases hc : c.toNat < 0x80
  · rw [utf8EncodeChar_of_ascii hc, List.mem_singleton]
    refine ⟨fun h => ?_, congrArg _⟩
    have hnat := congrArg UInt8.toNat h
    rw [toNat_toUInt8 hd, toNat_toUInt8 hc] at hnat
    exact Char.toNat_inj.1 hnat
  · constructor
    · intro h
      have hle := le_of_mem_utf8EncodeChar (Nat.le_of_not_lt hc) h
      rw [toNat_toUInt8 hd] at hle
      exact absurd hd (Nat.not_lt.2 hle)
    · rintro rfl
      exact absurd hd hc

/-- **A byte of ASCII stands for its character only.** -/
theorem mem_encode_iff (hd : d.toNat < 0x80) {cs : List Char} :
    d.toUInt8 ∈ encode cs ↔ d ∈ cs := by
  simp only [encode, List.mem_flatMap, mem_utf8EncodeChar_iff hd, exists_eq_right']

end CityScene.Text
