import Mathlib.Data.List.TakeWhile
import CityScene.Decimal.Numeral
import CityScene.Text.Blank

/-!
# What numbers are written with

A text that is read as a number has no blank and no comma in it, so it stays in one piece where a
text is split at those (`plain_of_readFloat`).  It is digits, signs, a point and the mark of an
exponent, or else letters.
-/

namespace CityScene.Decimal

/-- The characters write a finite number. -/
def Writes (token : List Char) (x : Float) : Prop :=
  readFloat token = .ok x ∧ x.isFinite = true

/-- A character at which no list of numbers is split. -/
def Plain (c : Char) : Prop :=
  Text.isBlank c = false ∧ c ≠ ','

theorem plain_of_toNat {c : Char} (hlow : 0x21 ≤ c.toNat) (hhigh : c.toNat ≤ 0x7E) (hc : c ≠ ',') :
    Plain c := by
  refine ⟨?_, hc⟩
  simp only [Text.isBlank, Text.blankRanges, List.any_cons, List.any_nil, Bool.or_false,
    Bool.or_eq_false_iff, Bool.and_eq_false_iff, decide_eq_false_iff_not]
  omega

theorem plain_of_isDigit {c : Char} (h : isDigit c = true) : Plain c := by
  rw [isDigit, Bool.and_eq_true_iff, decide_eq_true_iff, decide_eq_true_iff] at h
  have hlow : 48 ≤ c.toNat := h.1
  have hhigh : c.toNat ≤ 57 := h.2
  refine plain_of_toNat (by omega) (by omega) ?_
  rintro rfl
  exact absurd hlow (by decide)

/-- A letter in upper case is as plain as in lower case. -/
theorem plain_of_toLower {c : Char} (h : Plain c.toLower) : Plain c := by
  by_cases hupper : c.val ≥ 65 ∧ c.val ≤ 90
  · have hlow : 65 ≤ c.toNat := hupper.1
    have hhigh : c.toNat ≤ 90 := hupper.2
    refine plain_of_toNat (by omega) (by omega) ?_
    rintro rfl
    exact absurd hlow (by decide)
  · have hlower : c.toLower = c := dif_neg hupper
    rwa [hlower] at h

/-! ### The parts of a number -/

theorem mem_of_mem_splitSign {cs : List Char} {c : Char} (hc : c ∈ cs) :
    Plain c ∨ c ∈ (splitSign cs).2 := by
  unfold splitSign
  split
  · rcases List.mem_cons.1 hc with rfl | hc
    · exact .inl ⟨by decide, by decide⟩
    · exact .inr hc
  · rcases List.mem_cons.1 hc with rfl | hc
    · exact .inl ⟨by decide, by decide⟩
    · exact .inr hc
  · exact .inr hc

theorem plain_of_readExponent? {cs : List Char} {e : Int} (h : readExponent? cs = some e) :
    ∀ c ∈ cs, Plain c := by
  cases cs with
  | nil => exact fun c hc => absurd hc List.not_mem_nil
  | cons first rest =>
    rw [readExponent?] at h
    dsimp only at h
    split at h
    · next hexponent =>
      simp only [Bool.and_eq_true_iff, Bool.or_eq_true_iff, beq_iff_eq] at hexponent
      obtain ⟨⟨hmark, -⟩, hdigits⟩ := hexponent
      refine List.forall_mem_cons.2 ⟨?_, fun c hc => ?_⟩
      · rcases hmark with rfl | rfl <;> exact ⟨by decide, by decide⟩
      · rcases mem_of_mem_splitSign hc with hplain | hdigit
        · exact hplain
        · exact plain_of_isDigit (List.all_eq_true.1 hdigits c hdigit)
    · cases h

theorem plain_of_readDecimal? {cs : List Char} {d : Nat × Int} (h : readDecimal? cs = some d) :
    ∀ c ∈ cs, Plain c := by
  have hdigits : ∀ {l : List Char}, ∀ c ∈ l.takeWhile isDigit, Plain c :=
    fun c hc => plain_of_isDigit (List.mem_takeWhile_imp hc)
  intro c hc
  rw [← List.takeWhile_append_dropWhile (p := isDigit) (l := cs)] at hc
  rcases List.mem_append.1 hc with hc | hc
  · exact hdigits c hc
  -- what follows the digits is a point with more digits behind it, or the exponent
  rw [readDecimal?] at h
  split at h
  · next more hpoint =>
    rw [hpoint] at hc
    split at h
    · cases h
    · obtain ⟨e, hexponent, -⟩ := Option.map_eq_some_iff.1 h
      rcases List.mem_cons.1 hc with rfl | hc
      · exact ⟨by decide, by decide⟩
      · rw [← List.takeWhile_append_dropWhile (p := isDigit) (l := more)] at hc
        exact (List.mem_append.1 hc).elim (hdigits c) (plain_of_readExponent? hexponent c)
  · split at h
    · cases h
    · obtain ⟨e, hexponent, -⟩ := Option.map_eq_some_iff.1 h
      exact plain_of_readExponent? hexponent c hc

theorem plain_of_readName? {cs : List Char} {x : Float} (h : readName? cs = some x) :
    ∀ c ∈ cs, Plain c := by
  have hnames : ∀ name : String, (∀ d ∈ name.toList, Plain d) →
      String.ofList (cs.map Char.toLower) = name → ∀ c ∈ cs, Plain c := by
    intro name hname heq c hc
    refine plain_of_toLower (hname _ ?_)
    rw [← heq, String.toList_ofList]
    exact List.mem_map_of_mem hc
  unfold readName? at h
  split at h
  · next heq => exact hnames _ (by simp [Plain]; decide) heq
  · next heq => exact hnames _ (by simp [Plain]; decide) heq
  · next heq => exact hnames _ (by simp [Plain]; decide) heq
  · cases h

/-- **Numbers are written without blanks and commas.** -/
theorem plain_of_readFloat {cs : List Char} {x : Float} (h : readFloat cs = .ok x) :
    ∀ c ∈ cs, Plain c := by
  have hunsigned : ∀ c ∈ (splitSign cs).2, Plain c := by
    rw [readFloat] at h
    dsimp only at h
    split at h
    · cases h
    · cases h
    · next hmagnitude =>
      split at hmagnitude
      · next hdecimal => exact plain_of_readDecimal? hdecimal
      · exact plain_of_readName? hmagnitude
  intro c hc
  exact (mem_of_mem_splitSign hc).elim id (hunsigned c)

theorem ne_nil_of_readFloat {cs : List Char} {x : Float} (h : readFloat cs = .ok x) : cs ≠ [] := by
  rintro rfl
  cases h

end CityScene.Decimal
