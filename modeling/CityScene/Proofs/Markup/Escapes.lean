import CityScene.Markup.Reference
import CityScene.Proofs.Markup.Tags

/-!
# Escaped texts

In character data some characters cannot stand for themselves, and a reference may stand in the
place of any character.  `Writes` says which writings stand for a text.  One of them is `escape`,
with a named reference for each character that has a name.
-/

namespace CityScene.Markup

open Text (encode)

/-- The character stands for itself in character data, and in a value between double quotes. -/
def IsPlain (c : Char) : Prop :=
  c ≠ '<' ∧ c ≠ '&' ∧ c ≠ '"'

/-- The first text is a way of writing the second one.  Each character is written as itself or as a
reference to it, by its number or by its name. -/
inductive Writes : List Char → List Char → Prop
  | nil : Writes [] []
  | plain {c : Char} (hc : IsPlain c) {w s : List Char} (h : Writes w s) : Writes (c :: w) (c :: s)
  | reference {name : List Char} (hname : ∀ d ∈ name, IsPlain d ∧ d ≠ ';') {c : Char}
      (hc : resolveReference (String.ofList name) = .ok c) {w s : List Char} (h : Writes w s) :
      Writes ('&' :: (name ++ ';' :: w)) (c :: s)

theorem IsName.isPlain {name : List Char} (h : IsName name) :
    ∀ d ∈ name, IsPlain d ∧ d ≠ ';' := by
  intro d hd
  have hne {c : Char} (hc : isDelimiter c = true) : d ≠ c := by
    rintro rfl
    rw [h.2 d hd] at hc
    cases hc
  exact ⟨⟨hne rfl, hne rfl, hne rfl⟩, hne rfl⟩

namespace Writes

variable {w s : List Char} (h : Writes w s)
include h

theorem quote_notMem : '"' ∉ w := by
  induction h with
  | nil => exact List.not_mem_nil
  | plain hc _ ih => exact List.not_mem_cons_of_ne_of_not_mem hc.2.2.symm ih
  | @reference name hname c _ w s _ ih =>
    have hmiddle : '"' ∉ name := fun hd => (hname _ hd).1.2.2 rfl
    simp [hmiddle, ih]

theorem eq_nil_iff : w = [] ↔ s = [] := by
  cases h with
  | nil => exact Iff.rfl
  | plain => simp
  | reference => simp

end Writes

/-! ### Escaping -/

/-- The name of a character. -/
def nameOf? (c : Char) : Option String :=
  (namedCharacters.find? (·.2 == c)).map Prod.fst

/-- A character as it is escaped. -/
def escapeChar (c : Char) : List Char :=
  match nameOf? c with
  | some name => '&' :: (name.toList ++ [';'])
  | none => [c]

/-- A text as it is escaped, with a name for each character that has one. -/
def escape (s : List Char) : List Char :=
  s.flatMap escapeChar

theorem nameOf?_eq_some {c : Char} {name : String} (h : nameOf? c = some name) :
    (name, c) ∈ namedCharacters := by
  obtain ⟨⟨name', c'⟩, hfind, rfl⟩ := Option.map_eq_some_iff.1 h
  obtain rfl : c' = c := by simpa using List.find?_some hfind
  exact List.mem_of_find?_eq_some hfind

/-- The names of characters are names, and mean those characters. -/
theorem resolveReference_of_mem {name : String} {c : Char} (h : (name, c) ∈ namedCharacters) :
    IsName name.toList ∧ resolveReference name = .ok c := by
  simp only [namedCharacters, List.mem_cons, Prod.mk.injEq, List.not_mem_nil, or_false] at h
  rcases h with ⟨rfl, rfl⟩ | ⟨rfl, rfl⟩ | ⟨rfl, rfl⟩ | ⟨rfl, rfl⟩ | ⟨rfl, rfl⟩ <;>
    exact ⟨by decide +kernel, by decide +kernel⟩

/-- A character without a name stands for itself. -/
theorem isPlain_of_nameOf?_eq_none {c : Char} (h : nameOf? c = none) : IsPlain c := by
  have hnone := List.find?_eq_none.1 (Option.map_eq_none_iff.1 h)
  have hne (name : String) {d : Char} (hd : (name, d) ∈ namedCharacters) : c ≠ d := by
    rintro rfl
    exact absurd (hnone _ hd) (by simp)
  exact ⟨hne "lt" (by decide), hne "amp" (by decide), hne "quot" (by decide)⟩

theorem escape_cons_of_none {c : Char} (h : nameOf? c = none) (s : List Char) :
    escape (c :: s) = c :: escape s := by
  rw [escape, List.flatMap_cons, escapeChar, h]
  rfl

theorem escape_cons_of_some {c : Char} {name : String} (h : nameOf? c = some name)
    (s : List Char) : escape (c :: s) = '&' :: (name.toList ++ ';' :: escape s) := by
  rw [escape, List.flatMap_cons, escapeChar, h]
  show '&' :: (name.toList ++ [';'] ++ escape s) = _
  rw [List.append_assoc]
  rfl

/-- **Escaping writes the text.** -/
theorem writes_escape (s : List Char) : Writes (escape s) s := by
  induction s with
  | nil => exact .nil
  | cons c s ih =>
    cases hname : nameOf? c with
    | none =>
      rw [escape_cons_of_none hname]
      exact .plain (isPlain_of_nameOf?_eq_none hname) ih
    | some name =>
      obtain ⟨hletters, hresolve⟩ := resolveReference_of_mem (nameOf?_eq_some hname)
      rw [← String.ofList_toList (s := name)] at hresolve
      rw [escape_cons_of_some hname]
      exact .reference hletters.isPlain hresolve ih

theorem length_le_escape (s : List Char) : s.length ≤ (escape s).length := by
  induction s with
  | nil => exact Nat.le_refl _
  | cons c s ih =>
    cases hname : nameOf? c with
    | none =>
      rw [escape_cons_of_none hname]
      exact Nat.succ_le_succ ih
    | some name =>
      rw [escape_cons_of_some hname]
      simp only [List.length_cons, List.length_append]
      omega

/-- **Escaping changes every text with a character that has a name.** -/
theorem escape_eq_self_iff {s : List Char} : escape s = s ↔ ∀ c ∈ s, nameOf? c = none := by
  induction s with
  | nil => simp [escape]
  | cons c s ih =>
    cases hname : nameOf? c with
    | none =>
      rw [escape_cons_of_none hname, List.cons_inj_right, ih, List.forall_mem_cons,
        and_iff_right hname]
    | some name =>
      refine ⟨fun h => ?_, fun h => absurd (h c List.mem_cons_self) (by simp [hname])⟩
      have hlength := congrArg List.length h
      have hle := length_le_escape s
      rw [escape_cons_of_some hname] at hlength
      simp only [List.length_cons, List.length_append] at hlength
      omega

/-! ### Scanning -/

theorem startsMarkup_eq_false {cs : List Char} (h : ∀ c ∈ cs, IsPlain c) {b : UInt8}
    (hb : b ∈ encode cs) : Token.startsMarkup b = false := by
  have hbracket := ne_byte_of_mem_encode rfl (fun hc => (h _ hc).1 rfl) hb
  have hreference := ne_byte_of_mem_encode rfl (fun hc => (h _ hc).2.1 rfl) hb
  exact Bool.or_eq_false_iff.2 ⟨beq_false_of_ne hbracket, beq_false_of_ne hreference⟩

namespace Token

/-- Character data reaches to the next bracket or ampersand. -/
theorem scan_plain {l : List UInt8} (hl : ∀ b ∈ l, startsMarkup b = false) {b : UInt8}
    (hb : startsMarkup b = false) {m : UInt8} (hm : startsMarkup m = true) (rest : List UInt8) :
    scan b (l ++ m :: rest) = .ok (.text (b :: l), l.length) := by
  obtain ⟨hbracket, hreference⟩ := Bool.or_eq_false_iff.1 hb
  have htake : (l ++ m :: rest).takeWhile (!startsMarkup ·) = l :=
    takeWhile_append_cons (by simpa using hl) (by simp [hm]) rest
  rw [scan, hbracket, hreference, if_neg Bool.false_ne_true, if_neg Bool.false_ne_true]
  simp only [htake]

/-- A reference reaches to its semicolon. -/
theorem scan_reference {l : List UInt8} (hl : ∀ b ∈ l, startsMarkup b = false ∧ b ≠ byte ';')
    (rest : List UInt8) :
    scan (byte '&') (l ++ byte ';' :: rest) = .ok (.reference l, l.length + 1) := by
  have htake : (l ++ byte ';' :: rest).takeWhile (fun c => !(startsMarkup c || c == byte ';')) =
      l := takeWhile_append_cons (fun b hb => by simp [hl b hb]) rfl rest
  rw [scan, if_neg (by decide), if_pos (by decide)]
  simp only [htake, List.getElem?_append_right (Nat.le_refl _), Nat.sub_self,
    List.getElem?_cons_zero]
  rfl

end Token

end CityScene.Markup
