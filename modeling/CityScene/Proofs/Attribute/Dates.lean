import CityScene.Attribute.Date
import CityScene.Proofs.Decimal.Integers
import CityScene.Proofs.Text.Words

/-!
# Dates and their texts

A date text is cut at ten bytes before it is taken apart.  A date that was read has a year from 0
to 999999, and its text is `YYYY-MM-DD` with as many places for the year as the year needs.  So the
cut leaves a four-digit year its whole day, a five-digit year the first digit of its day, and a
six-digit year nothing of it (`parse_text_iff`).
-/

namespace CityScene.Date

/-! ### Taking a text apart -/

theorem fields?_eq_some_iff {cs year month day : List Char} :
    fields? cs = some (year, month, day) ↔
      cs = year ++ '-' :: (month ++ '-' :: day) ∧ '-' ∉ year ∧ '-' ∉ month := by
  have hfront (l : List Char) : '-' ∉ l.takeWhile (· != '-') := by
    intro h
    have hne := List.mem_takeWhile_imp h
    simp at hne
  have hback {l rest : List Char} {c : Char} (h : l.dropWhile (· != '-') = c :: rest) :
      l = l.takeWhile (· != '-') ++ '-' :: rest := by
    have hc := List.head?_dropWhile_not (· != '-') l
    rw [h] at hc
    obtain rfl : c = '-' := by simpa using hc
    rw [← h, List.takeWhile_append_dropWhile]
  constructor
  · intro h
    unfold fields? at h
    split at h
    · cases h
    · next rest hrest =>
      split at h
      · cases h
      · next last hlast =>
        obtain ⟨rfl, rfl, rfl⟩ : _ ∧ _ ∧ _ := by simpa using h
        refine ⟨?_, hfront cs, hfront rest⟩
        rw [← hback hlast]
        exact hback hrest
  · rintro ⟨rfl, hyear, hmonth⟩
    have hall {l : List Char} (h : '-' ∉ l) : ∀ c ∈ l, (c != '-') = true := by
      intro c hc
      simp only [bne_iff_ne]
      rintro rfl
      exact h hc
    simp [fields?, List.dropWhile_append_of_pos (hall hyear),
      List.takeWhile_append_of_pos (hall hyear), List.dropWhile_append_of_pos (hall hmonth),
      List.takeWhile_append_of_pos (hall hmonth)]

/-- What is cut off the front is a beginning of the text, no longer than its bytes. -/
theorem front?_begins {n : Nat} {cs front : List Char} (h : front? n cs = some front) :
    front <+: cs ∧ front.length ≤ n := by
  induction cs generalizing n front with
  | nil =>
    cases n with
    | zero =>
      obtain rfl : [] = front := by simpa [front?] using h
      exact ⟨List.nil_prefix, Nat.le_refl 0⟩
    | succ n => simp [front?] at h
  | cons c cs ih =>
    cases n with
    | zero =>
      obtain rfl : [] = front := by simpa [front?] using h
      exact ⟨List.nil_prefix, Nat.le_refl 0⟩
    | succ n =>
      rw [front?] at h
      · split at h
        · cases h
        · obtain ⟨rest, hrest, rfl⟩ := Option.map_eq_some_iff.1 h
          obtain ⟨hbegins, hlength⟩ := ih hrest
          have hsize := c.utf8Size_pos
          exact ⟨(List.prefix_cons_inj c).2 hbegins, by rw [List.length_cons]; omega⟩
      · exact Nat.succ_ne_zero n

/-- Texts of bytes can be told by a check of their characters. -/
theorem bytes_of_all {cs : List Char} (h : cs.all (·.utf8Size == 1) = true) :
    ∀ c ∈ cs, c.utf8Size = 1 :=
  fun c hc => eq_of_beq (List.all_eq_true.1 h c hc)

/-- Of a text of single bytes the front is cut off if the text is long enough. -/
theorem front?_of_bytes {cs : List Char} (h : ∀ c ∈ cs, c.utf8Size = 1) (n : Nat) :
    front? n cs = if n ≤ cs.length then some (cs.take n) else none := by
  induction cs generalizing n with
  | nil => cases n <;> simp [front?]
  | cons c cs ih =>
    obtain ⟨hc, hcs⟩ := List.forall_mem_cons.1 h
    cases n with
    | zero => simp [front?]
    | succ n =>
      rw [front?, hc, if_neg (by omega), Nat.add_sub_cancel, ih hcs]
      · by_cases hn : n ≤ cs.length <;> simp [hn]
      · exact Nat.succ_ne_zero n

theorem ofYearMonthDay?_eq_some_iff {year : Int} {month day : Nat} {d : Date} :
    ofYearMonthDay? year month day = some d ↔ d.year = year ∧ d.month = month ∧ d.day = day := by
  obtain ⟨dyear, dmonth, dday, hvalid⟩ := d
  unfold ofYearMonthDay?
  split
  · simp [eq_comm]
  · next hnone =>
    constructor
    · intro h
      cases h
    · rintro ⟨rfl, rfl, rfl⟩
      exact absurd hvalid hnone

theorem parse_eq_ok_iff {s : String} {d : Date} : parse s = .ok d ↔ ∃ year month day,
    fields? ((front? 10 (Text.trim s.toList)).getD (Text.trim s.toList)) =
        some (year, month, day) ∧
      Decimal.readInteger (Decimal.greatest 31) year = .ok d.year ∧
      Decimal.readCount? (Decimal.greatest 8) month = some d.month ∧
      Decimal.readCount? (Decimal.greatest 8) day = some d.day := by
  unfold parse
  dsimp only
  generalize fields? ((front? 10 (Text.trim s.toList)).getD (Text.trim s.toList)) = fields
  constructor
  · intro h
    cases fields with
    | none => cases h
    | some fields =>
      obtain ⟨year, month, day⟩ := fields
      refine ⟨year, month, day, rfl, ?_⟩
      cases hyear : Decimal.readInteger (Decimal.greatest 31) year with
      | error fault => simp [hyear, Except.toOption] at h
      | ok y =>
        cases hmonth : Decimal.readCount? (Decimal.greatest 8) month with
        | none => simp [hyear, hmonth, Except.toOption] at h
        | some m =>
          cases hday : Decimal.readCount? (Decimal.greatest 8) day with
          | none => simp [hyear, hmonth, hday, Except.toOption] at h
          | some n =>
            cases hdate : ofYearMonthDay? y m n with
            | none => simp [hyear, hmonth, hday, hdate, Except.toOption] at h
            | some date =>
              obtain rfl : date = d := by
                simpa [hyear, hmonth, hday, hdate, Except.toOption, pure, Except.pure] using h
              obtain ⟨rfl, rfl, rfl⟩ := ofYearMonthDay?_eq_some_iff.1 hdate
              exact ⟨rfl, rfl, rfl⟩
  · rintro ⟨year, month, day, rfl, hyear, hmonth, hday⟩
    have hdate : ofYearMonthDay? d.year d.month d.day = some d :=
      ofYearMonthDay?_eq_some_iff.2 ⟨rfl, rfl, rfl⟩
    simp [hyear, hmonth, hday, hdate, Except.toOption, pure, Except.pure]

/-! ### The text of a date -/

/-- A number of two digits is its digits. -/
theorem padded_two {n : Nat} (h : n < 100) :
    padded 2 n = [Nat.digitChar (n / 10), Nat.digitChar (n % 10)] := by
  revert n
  decide

theorem length_padded_four {n : Nat} (h : n ≤ 999999) :
    (padded 4 n).length = if n ≤ 9999 then 4 else if n ≤ 99999 then 5 else 6 := by
  have hplaces (k : Nat) (hk : 0 < k) : (Nat.toDigits 10 n).length ≤ k ↔ n < 10 ^ k :=
    Nat.length_toDigits_le_iff (by decide) hk
  have hfour := hplaces 4 (by decide)
  have hfive := hplaces 5 (by decide)
  have hsix := hplaces 6 (by decide)
  simp only [padded, List.length_append, List.length_replicate]
  split
  · omega
  · split <;> omega

theorem daysInMonth_bounds {year : Int} {month : Nat} (h : 0 < daysInMonth year month) :
    1 ≤ month ∧ month ≤ 12 ∧ daysInMonth year month ≤ 31 := by
  unfold daysInMonth at h ⊢
  split at h <;> first | omega | skip
  split <;> omega

/-- A date whose year is not before the calendar has its year, month and day in its text. -/
theorem toList_text {d : Date} (h : 0 ≤ d.year) : d.text.toList =
    padded 4 d.year.natAbs ++ '-' :: (padded 2 d.month ++ '-' :: padded 2 d.day) := by
  unfold text
  rw [String.toList_ofList, if_neg (by omega)]
  exact List.append_assoc ..

theorem isDigit_of_mem_padded {width n : Nat} {c : Char} (h : c ∈ padded width n) :
    c.isDigit = true :=
  Decimal.isDigit_of_mem_zeros_append h

theorem dash_not_mem_padded {width n : Nat} : '-' ∉ padded width n :=
  fun h => absurd (isDigit_of_mem_padded h) (by decide)

theorem padded_ne_nil {width n : Nat} : padded width n ≠ [] :=
  List.append_ne_nil_of_right_ne_nil _ Nat.toDigits_ne_nil

/-- Digits and signs are single bytes and not blank. -/
theorem plain_of_isDigit_or_sign {c : Char} (h : c.isDigit = true ∨ c = '-' ∨ c = '+') :
    c.utf8Size = 1 ∧ Text.isBlank c = false := by
  have hrange : 43 ≤ c.toNat ∧ c.toNat ≤ 57 := by
    rcases h with hdigit | rfl | rfl
    · have hvalue := (Decimal.digitValue?_of_isDigit hdigit).2
      simp only [Char.isDigit, Bool.and_eq_true_iff, decide_eq_true_iff] at hdigit
      exact ⟨le_trans (by decide) (show 48 ≤ c.toNat from hdigit.1), hdigit.2⟩
    · decide
    · decide
  constructor
  · rw [Char.utf8Size_eq_one_iff]
    exact UInt32.le_iff_toNat_le.2 (le_trans hrange.2 (by decide))
  · simp only [Text.isBlank, Text.blankRanges, List.any_cons, List.any_nil, Bool.or_false,
      Bool.or_eq_false_iff, Bool.and_eq_false_iff, decide_eq_false_iff_not]
    omega

/-- What the cut leaves of the text of a date. -/
theorem front_text {d : Date} (hyear : 0 ≤ d.year) (hsix : d.year ≤ 999999) :
    (front? 10 (Text.trim d.text.toList)).getD (Text.trim d.text.toList) =
      padded 4 d.year.natAbs ++ '-' :: (padded 2 d.month ++ '-' ::
        (padded 2 d.day).take (6 - (padded 4 d.year.natAbs).length)) := by
  obtain ⟨hmonth, hmonth', hdays⟩ := daysInMonth_bounds (Nat.lt_of_lt_of_le d.valid.1 d.valid.2)
  have hplain : ∀ c ∈ d.text.toList, c.utf8Size = 1 ∧ Text.isBlank c = false := by
    intro c hc
    apply plain_of_isDigit_or_sign
    rw [toList_text hyear] at hc
    simp only [List.mem_append, List.mem_cons] at hc
    rcases hc with hc | hc | hc | hc | hc
    · exact .inl (isDigit_of_mem_padded hc)
    · exact .inr (.inl hc)
    · exact .inl (isDigit_of_mem_padded hc)
    · exact .inr (.inl hc)
    · exact .inl (isDigit_of_mem_padded hc)
  have hlength : 4 ≤ (padded 4 d.year.natAbs).length ∧ (padded 4 d.year.natAbs).length ≤ 6 := by
    rw [length_padded_four (by omega)]
    split
    · omega
    · split <;> omega
  have hday := padded_two (n := d.day) (by have := d.valid.2; omega)
  rw [Text.trim_eq_self fun c hc => (hplain c hc).2, front?_of_bytes fun c hc => (hplain c hc).1,
    toList_text hyear, hday, padded_two (n := d.month) (by omega)]
  generalize padded 4 d.year.natAbs = year at *
  have hten : 10 - year.length = 6 - year.length + 4 := by omega
  rw [if_pos (by simp only [List.length_append, List.length_cons, List.length_nil]; omega),
    Option.getD_some, List.take_append, List.take_of_length_le (by omega), hten]
  rfl

/-- A two-digit field is read whole, by its first digit, or not at all. -/
theorem readCount?_take_padded_two {n : Nat} (h : n < 100) (k v : Nat) :
    Decimal.readCount? (Decimal.greatest 8) ((padded 2 n).take k) = some v ↔
      2 ≤ k ∧ v = n ∨ k = 1 ∧ v = n / 10 := by
  have hread {cs : List Char} {m : Nat} (hne : cs ≠ []) (hdigits : ∀ c ∈ cs, c.isDigit = true)
      (hm : Nat.ofDigitChars 10 cs 0 = m) (hle : m ≤ n) :
      Decimal.readCount? (Decimal.greatest 8) cs = some v ↔ v = m := by
    have hgreatest : Decimal.greatest 8 = 255 := rfl
    rw [Decimal.readCount?_of_digits hne hdigits (by omega), hm, Option.some.injEq, eq_comm]
  match k with
  | 0 =>
    have hnone : Decimal.readCount? (Decimal.greatest 8) [] = none := rfl
    simp [hnone]
  | 1 =>
    have hdigit : ∀ a < 10, (Nat.digitChar a).isDigit = true ∧
        Nat.ofDigitChars 10 [Nat.digitChar a] 0 = a := by decide
    have hten : n / 10 < 10 := by omega
    rw [padded_two h, List.take_succ_cons, List.take_zero,
      hread (List.cons_ne_nil _ _) (by simpa using (hdigit _ hten).1) (hdigit _ hten).2
        (Nat.div_le_self n 10)]
    omega
  | k + 2 =>
    rw [List.take_of_length_le (by rw [padded_two h]; exact Nat.le_add_left 2 k),
      hread padded_ne_nil (fun c hc => isDigit_of_mem_padded hc)
        (Decimal.ofDigitChars_zeros_append _ n) (Nat.le_refl n)]
    omega

/-- **What the text of a date is read as.**  A year of five digits leaves the day its first digit
only, a longer one leaves it none. -/
theorem parse_text_iff {d e : Date} (hyear : 0 ≤ d.year) (hsix : d.year ≤ 999999) :
    parse d.text = .ok e ↔ e.year = d.year ∧ e.month = d.month ∧
      (d.year ≤ 9999 ∧ e.day = d.day ∨
        9999 < d.year ∧ d.year ≤ 99999 ∧ e.day = d.day / 10) := by
  obtain ⟨hmonth, hmonth', hdays⟩ := daysInMonth_bounds (Nat.lt_of_lt_of_le d.valid.1 d.valid.2)
  have hday : d.day < 100 := by have := d.valid.2; omega
  have hreadYear : Decimal.readInteger (Decimal.greatest 31) (padded 4 d.year.natAbs) =
      .ok d.year := by
    have hvalue : Nat.ofDigitChars 10 (padded 4 d.year.natAbs) 0 = d.year.natAbs :=
      Decimal.ofDigitChars_zeros_append _ _
    have hgreatest : Decimal.greatest 31 = 2147483647 := rfl
    rw [Decimal.readInteger_of_digits padded_ne_nil (fun c hc => isDigit_of_mem_padded hc)
      (by omega), hvalue, Int.natAbs_of_nonneg hyear]
  have hreadMonth : Decimal.readCount? (Decimal.greatest 8) (padded 2 d.month) = some d.month := by
    have htake := (readCount?_take_padded_two (n := d.month) (by omega) 2 d.month).2
      (.inl ⟨Nat.le_refl 2, rfl⟩)
    rwa [List.take_of_length_le (by rw [padded_two (by omega)]; exact Nat.le_refl 2)] at htake
  have hfields : fields? ((front? 10 (Text.trim d.text.toList)).getD (Text.trim d.text.toList)) =
      some (padded 4 d.year.natAbs, padded 2 d.month,
        (padded 2 d.day).take (6 - (padded 4 d.year.natAbs).length)) :=
    fields?_eq_some_iff.2 ⟨front_text hyear hsix, dash_not_mem_padded, dash_not_mem_padded⟩
  have hplaces : 2 ≤ 6 - (padded 4 d.year.natAbs).length ∧ e.day = d.day ∨
      6 - (padded 4 d.year.natAbs).length = 1 ∧ e.day = d.day / 10 ↔
      d.year ≤ 9999 ∧ e.day = d.day ∨
        9999 < d.year ∧ d.year ≤ 99999 ∧ e.day = d.day / 10 := by
    rw [length_padded_four (by omega)]
    split
    · omega
    · split <;> omega
  rw [parse_eq_ok_iff, ← hplaces, ← readCount?_take_padded_two hday]
  constructor
  · rintro ⟨year, month, day, hread, hyear', hmonth', hday'⟩
    rw [hfields] at hread
    obtain ⟨rfl, rfl, rfl⟩ : _ ∧ _ ∧ _ := by simpa using hread
    rw [hreadYear] at hyear'
    rw [hreadMonth] at hmonth'
    exact ⟨(Except.ok.inj hyear').symm, (Option.some.inj hmonth').symm, hday'⟩
  · rintro ⟨hy, hm, hd⟩
    exact ⟨_, _, _, hfields, hy ▸ hreadYear, hm ▸ hreadMonth, hd⟩

/-! ### Dates that were read -/

/-- The cut leaves ten characters at most, of a text of single bytes. -/
theorem length_front_le {cs : List Char}
    (h : ∀ c ∈ (front? 10 cs).getD cs, c.utf8Size = 1) : ((front? 10 cs).getD cs).length ≤ 10 := by
  cases hfront : front? 10 cs with
  | some front => exact (front?_begins hfront).2
  | none =>
    rw [hfront, Option.getD_none] at h
    rw [front?_of_bytes h] at hfront
    split at hfront
    · cases hfront
    · exact Nat.le_of_not_le ‹_›

/-- The year of a date that was read has no minus, and six places at most. -/
theorem year_bounds_of_parse {s : String} {d : Date} (h : parse s = .ok d) :
    0 ≤ d.year ∧ d.year ≤ 999999 := by
  obtain ⟨year, month, day, hfields, hyear, hmonth, hday⟩ := parse_eq_ok_iff.1 h
  obtain ⟨hcut, hdash, -⟩ := fields?_eq_some_iff.1 hfields
  obtain ⟨y, hy, hydigits, hvalue⟩ := Decimal.digits_of_readInteger hyear hdash
  obtain ⟨m, hm, hmne, hmdigits, -⟩ := Decimal.digits_of_readCount? hmonth
  obtain ⟨n, hn, hnne, hndigits, -⟩ := Decimal.digits_of_readCount? hday
  have hnumber {cs digits : List Char} (hcs : cs = digits ∨ cs = '+' :: digits)
      (hdigits : ∀ c ∈ digits, c.isDigit = true) :
      digits.length ≤ cs.length ∧ ∀ c ∈ cs, c.utf8Size = 1 := by
    have hbytes : ∀ c ∈ digits, c.utf8Size = 1 :=
      fun c hc => (plain_of_isDigit_or_sign (.inl (hdigits c hc))).1
    rcases hcs with rfl | rfl
    · exact ⟨Nat.le_refl _, hbytes⟩
    · exact ⟨Nat.le_succ _, List.forall_mem_cons.2 ⟨by decide, hbytes⟩⟩
  have hplaces : y.length ≤ 6 := by
    have hdashes := List.length_pos_iff.2 hmne
    have hlast := List.length_pos_iff.2 hnne
    have hyear := hnumber hy hydigits
    have hmonth := hnumber hm hmdigits
    have hday := hnumber hn hndigits
    have hbytes : ∀ c ∈ (front? 10 (Text.trim s.toList)).getD (Text.trim s.toList),
        c.utf8Size = 1 := by
      rw [hcut]
      simp only [List.mem_append, List.mem_cons]
      rintro c (hc | rfl | hc | rfl | hc)
      · exact hyear.2 c hc
      · decide
      · exact hmonth.2 c hc
      · decide
      · exact hday.2 c hc
    have hten := length_front_le hbytes
    rw [hcut] at hten
    simp only [List.length_append, List.length_cons] at hten
    omega
  have hlt := Decimal.ofDigitChars_lt hydigits 0
  have hpow : 10 ^ y.length ≤ 10 ^ 6 := Nat.pow_le_pow_right (by decide) hplaces
  omega

/-- **A date that was read is a day of the calendar, and its text is read as the same date exactly
when its year has four places at most.** -/
theorem parse_text_of_parse {s : String} {d : Date} (h : parse s = .ok d) :
    0 ≤ d.year ∧ d.year ≤ 999999 ∧ 1 ≤ d.month ∧ d.month ≤ 12 ∧
      1 ≤ d.day ∧ d.day ≤ daysInMonth d.year d.month ∧
      (parse d.text = .ok d ↔ d.year ≤ 9999) := by
  obtain ⟨hyear, hsix⟩ := year_bounds_of_parse h
  obtain ⟨hmonth, hmonth', -⟩ := daysInMonth_bounds (Nat.lt_of_lt_of_le d.valid.1 d.valid.2)
  have hfirst := d.valid.1
  refine ⟨hyear, hsix, hmonth, hmonth', hfirst, d.valid.2, ?_⟩
  rw [parse_text_iff hyear hsix]
  -- the first digit of a day is never the day
  omega

/-- The theorem at a leap day without all its zeros. -/
theorem parse_text_of_leap_day : ∃ d, parse " 2024-2-29" = .ok d ∧ parse d.text = .ok d := by
  have hread : parse " 2024-2-29" = .ok ⟨2024, 2, 29, by decide⟩ := by
    refine parse_eq_ok_iff.2 ⟨['2', '0', '2', '4'], ['2'], ['2', '9'], ?_, by rfl, by rfl, by rfl⟩
    have htrim : Text.trim " 2024-2-29".toList = "2024-2-29".toList := by decide
    rw [htrim, front?_of_bytes (bytes_of_all (by decide))]
    rfl
  exact ⟨_, hread, (parse_text_of_parse hread).2.2.2.2.2.2.2 (by decide)⟩

/-- Of the text of a day in a year of five digits only the first digit of the day is read. -/
theorem parse_text_of_long_year : ∃ d e, parse "12345-1-15" = .ok d ∧
    d.text = "12345-01-15" ∧ parse d.text = .ok e ∧ d.day = 15 ∧ e.day = 1 := by
  have hread : parse "12345-1-15" = .ok ⟨12345, 1, 15, by decide⟩ := by
    refine parse_eq_ok_iff.2
      ⟨['1', '2', '3', '4', '5'], ['1'], ['1', '5'], ?_, by rfl, by rfl, by rfl⟩
    have htrim : Text.trim "12345-1-15".toList = "12345-1-15".toList := by decide
    rw [htrim, front?_of_bytes (bytes_of_all (by decide))]
    rfl
  have hagain : parse (text ⟨12345, 1, 15, by decide⟩) = .ok ⟨12345, 1, 1, by decide⟩ :=
    (parse_text_iff (by decide) (by decide)).2 ⟨rfl, rfl, .inr (by decide)⟩
  exact ⟨_, _, hread, by decide, hagain, rfl, rfl⟩

end CityScene.Date
