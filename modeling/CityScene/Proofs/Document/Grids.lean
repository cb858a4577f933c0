import CityScene.Proofs.Coverage.Cells

/-!
# Grids that are put together

A grid that is put together has as many columns and rows as there are between its limits, at least
one of each (`exists_limits_of_build`).  The limits are all that decides on this: how many samples
there are does not.  So a document can give a grid more cells than there are numbers for in a machine
word, and then, but only then, the number of a cell overflows (`sampleAt_of_build`).

`GridParts.Fits` says of the limits that nothing overflows when the grid is put together and its
corners are looked up, and `fits_iff` that this is so.
-/

namespace CityScene.Document

open GridParts (corner? span)

/-! ### Limits -/

/-- The number of positions from one to another, and the difference before it, fit in machine
words. -/
def SpanFits (first last : Int64) : Prop :=
  Int64.minValue.toInt ≤ last.toInt - first.toInt ∧
    last.toInt - first.toInt + 1 ≤ Int64.maxValue.toInt

namespace GridParts

variable {parts : GridParts} {first last n : Int64} {low high : Int64 × Int64}

theorem span_eq_ok_iff : span first last = .ok n ↔
    SpanFits first last ∧ n.toInt = last.toInt - first.toInt + 1 := by
  have hmin : Int64.minValue.toInt = -Int.pow 2 63 := rfl
  have hmax : Int64.maxValue.toInt + 1 = Int.pow 2 63 := rfl
  rw [span, SpanFits]
  cases hdifference : Checked.subSigned last first with
  | ok difference =>
    have hd := Checked.subSigned_eq_ok_iff.1 hdifference
    have hsum : Checked.addSigned difference 1 = .ok n ↔ n.toInt = difference.toInt + 1 :=
      Checked.addSigned_eq_ok_iff
    have hle : Int64.minValue.toInt ≤ difference.toInt := difference.le_toInt
    have hlt : n.toInt < Int.pow 2 63 := n.toInt_lt
    rw [hd] at hsum hle
    refine hsum.trans ⟨fun h => ⟨⟨hle, by omega⟩, h⟩, fun h => h.2⟩
  | error fault =>
    refine iff_of_false (fun h => by cases h) fun ⟨⟨hle, hlt⟩, _⟩ => ?_
    have hd : (Int64.ofInt (last.toInt - first.toInt)).toInt = last.toInt - first.toInt :=
      Int64.toInt_ofInt_of_le hle (show _ < Int.pow 2 63 by omega)
    rw [Checked.subSigned_eq_ok_iff.2 hd] at hdifference
    cases hdifference

theorem exists_span_iff : (∃ n, span first last = .ok n) ↔ SpanFits first last := by
  refine ⟨fun ⟨n, h⟩ => (span_eq_ok_iff.1 h).1, fun h => ?_⟩
  have hmin : Int64.minValue.toInt = -Int.pow 2 63 := rfl
  have hmax : Int64.maxValue.toInt + 1 = Int.pow 2 63 := rfl
  have hn : (Int64.ofInt (last.toInt - first.toInt + 1)).toInt = last.toInt - first.toInt + 1 := by
    obtain ⟨hle, hlt⟩ := h
    exact Int64.toInt_ofInt_of_le (show -Int.pow 2 63 ≤ _ by omega) (show _ < Int.pow 2 63 by omega)
  exact ⟨_, span_eq_ok_iff.2 ⟨h, hn⟩⟩

/-- The first two components of both limits, of a grid that has an origin and two offset vectors. -/
structure HasLimits (parts : GridParts) (low high : Int64 × Int64) : Prop where
  origin : parts.origin.isSome = true
  offsetVectors : parts.offsetVectors.length = 2
  low : corner? (parts.low.getD [0, 0]) = some low
  high : parts.high.bind corner? = some high

/-- Nothing overflows when the grid is put together and its corners are looked up: on both axes the
number of positions fits in a machine word, and if there are inline samples, so do the numbers of
all cells. -/
def Fits (parts : GridParts) : Prop :=
  ∀ low high, parts.HasLimits low high →
    SpanFits low.1 high.1 ∧ SpanFits low.2 high.2 ∧
    let columns := high.1.toInt - low.1.toInt + 1
    let rows := high.2.toInt - low.2.toInt + 1
    parts.samples.isSome = true → 0 < columns → 0 < rows → rows * columns ≤ UInt64.size

theorem HasLimits.eq {low' high' : Int64 × Int64} (h : parts.HasLimits low high)
    (h' : parts.HasLimits low' high') : low' = low ∧ high' = high :=
  ⟨Option.some.inj (h'.low.symm.trans h.low), Option.some.inj (h'.high.symm.trans h.high)⟩

/-- With limits, only the extent of the grid is left to compute. -/
theorem build_of_hasLimits (h : parts.HasLimits low high) :
    ∃ origin columnOffset rowOffset, parts.build =
      (span low.1 high.1).bind fun columns => (span low.2 high.2).bind fun rows =>
        .ok ((parts.extended origin columnOffset rowOffset columns rows).map some) := by
  obtain ⟨origin, horigin⟩ := Option.isSome_iff_exists.1 h.origin
  obtain ⟨columnOffset, rowOffset, hoffsets⟩ := List.length_eq_two.1 h.offsetVectors
  obtain ⟨last, hlast, hcorner⟩ := Option.bind_eq_some_iff.1 h.high
  have htouched : ¬ parts.isUntouched = true := by simp [isUntouched, horigin]
  refine ⟨origin, columnOffset, rowOffset, ?_⟩
  rw [build, if_neg htouched, assemble, horigin, hoffsets, hlast]
  simp only [h.low, hcorner]
  cases span low.1 high.1 with
  | error fault => rfl
  | ok columns => cases span low.2 high.2 <;> rfl

/-- Without limits there is no grid, and nothing to compute. -/
theorem build_of_not_hasLimits (h : ∀ low high, ¬ parts.HasLimits low high) :
    ∃ result, parts.build = .ok result ∧ ∀ g, result ≠ .ok (some g) := by
  have hfault : ∃ fault, parts.assemble = .ok (.error fault) := by
    rw [assemble]
    -- one part after the other is missing, or all of them are there
    split
    case h_2 => exact ⟨_, rfl⟩
    next origin horigin =>
    split
    case h_2 => exact ⟨_, rfl⟩
    next columnOffset rowOffset hoffsets =>
    split
    case h_2 => exact ⟨_, rfl⟩
    next last hlast =>
    split
    case h_2 => exact ⟨_, rfl⟩
    next low hlow =>
    split
    case h_2 => exact ⟨_, rfl⟩
    next high hcorner =>
    refine absurd ⟨?_, ?_, hlow, ?_⟩ (h low high)
    · rw [horigin]
      rfl
    · rw [hoffsets]
      rfl
    · rw [hlast, Option.bind_some, hcorner]
  obtain ⟨fault, hfault⟩ := hfault
  rw [build]
  split
  · exact ⟨_, rfl, nofun⟩
  · rw [hfault]
    exact ⟨_, rfl, nofun⟩

theorem toNat_toUInt64 (h : 0 < n.toInt) : (n.toUInt64.toNat : Int) = n.toInt := by
  rw [Int64.toNat_toUInt64_of_le (Int64.le_iff_toInt_le.2 (Int.le_of_lt h)), ← Int64.toNat_toInt,
    Int.toNat_of_nonneg (Int.le_of_lt h)]

/-- There must be columns, rows and samples. -/
theorem extended_eq_ok_iff {g : GridCoverage} {origin columnOffset rowOffset : Vec3 Float}
    {columns rows : Int64} :
    parts.extended origin columnOffset rowOffset columns rows = .ok g ↔
      0 < columns.toInt ∧ 0 < rows.toInt ∧ ∃ samples, parts.gridSamples? = some samples ∧
        g = ⟨origin, columnOffset, rowOffset, rows.toUInt64, columns.toUInt64, samples⟩ := by
  have hempty : columns ≤ 0 ∨ rows ≤ 0 ↔ ¬ (0 < columns.toInt ∧ 0 < rows.toInt) := by
    rw [Int64.le_iff_toInt_le, Int64.le_iff_toInt_le, Int64.toInt_zero]
    omega
  rw [extended]
  by_cases hcells : 0 < columns.toInt ∧ 0 < rows.toInt
  · rw [if_neg (by rwa [hempty, not_not]), and_iff_right hcells.1, and_iff_right hcells.2]
    cases parts.gridSamples? with
    | none => exact iff_of_false (fun h => by cases h) fun ⟨_, h, _⟩ => by cases h
    | some samples =>
      constructor
      · exact fun h => ⟨samples, rfl, (Except.ok.inj h).symm⟩
      · rintro ⟨_, hsamples, rfl⟩
        obtain rfl := Option.some.inj hsamples
        rfl
  · rw [if_pos (hempty.2 hcells)]
    exact iff_of_false (fun h => by cases h) fun h => hcells ⟨h.1, h.2.1⟩

theorem gridSamples?_eq_inline_iff {values : List Float} :
    parts.gridSamples? = some (.inline values) ↔ parts.samples = some values := by
  rw [gridSamples?]
  cases parts.samples <;> cases parts.file <;> simp

/-! ### Grids -/

/-- **Putting parts together.**  If it does not overflow and gives a grid, this has as many columns
and rows as there are between its limits. -/
theorem exists_limits_of_build {g : GridCoverage} (h : parts.build = .ok (.ok (some g))) :
    ∃ low high, parts.HasLimits low high ∧
      0 < high.1.toInt - low.1.toInt + 1 ∧ 0 < high.2.toInt - low.2.toInt + 1 ∧
      (g.columns.toNat : Int) = high.1.toInt - low.1.toInt + 1 ∧
      (g.rows.toNat : Int) = high.2.toInt - low.2.toInt + 1 ∧
      ∀ values, g.samples = .inline values ↔ parts.samples = some values := by
  by_cases hlimits : ∃ low high, parts.HasLimits low high
  · obtain ⟨low, high, hlimits⟩ := hlimits
    obtain ⟨origin, columnOffset, rowOffset, hbuild⟩ := build_of_hasLimits hlimits
    rw [hbuild] at h
    obtain ⟨columns, hcolumns, h⟩ := exists_of_bind_eq_ok h
    obtain ⟨rows, hrows, h⟩ := exists_of_bind_eq_ok h
    obtain ⟨g', hg, hsome⟩ := exists_of_map_eq_ok (Except.ok.inj h)
    obtain rfl := Option.some.inj hsome
    obtain ⟨hcolumnsPos, hrowsPos, samples, hsamples, rfl⟩ := extended_eq_ok_iff.1 hg
    refine ⟨low, high, hlimits, ?_⟩
    rw [← (span_eq_ok_iff.1 hcolumns).2, ← (span_eq_ok_iff.1 hrows).2]
    refine ⟨hcolumnsPos, hrowsPos, toNat_toUInt64 hcolumnsPos, toNat_toUInt64 hrowsPos,
      fun values => ?_⟩
    rw [← gridSamples?_eq_inline_iff, hsamples, Option.some_inj]
  · simp only [not_exists] at hlimits
    obtain ⟨result, hbuild, hnone⟩ := build_of_not_hasLimits hlimits
    rw [hbuild] at h
    exact absurd (Except.ok.inj h) (hnone g)

theorem ne_zero_of_toNat_pos {n : UInt64} (h : 0 < (n.toNat : Int)) : n ≠ 0 := by
  rintro rfl
  exact absurd h (by decide)

/-- **When nothing overflows.**  The grid is put together, or found to have a fault, and its corners
are looked up. -/
theorem fits_iff : parts.Fits ↔ ∃ result, parts.build = .ok result ∧
    ∀ g, result = .ok (some g) → ∃ e, g.envelope = .ok e := by
  constructor
  · intro hfits
    obtain ⟨result, hresult⟩ : ∃ result, parts.build = .ok result := by
      by_cases hlimits : ∃ low high, parts.HasLimits low high
      · obtain ⟨low, high, hlimits⟩ := hlimits
        obtain ⟨hcolumns, hrows, -⟩ := hfits low high hlimits
        obtain ⟨columns, hcolumns⟩ := exists_span_iff.2 hcolumns
        obtain ⟨rows, hrows⟩ := exists_span_iff.2 hrows
        obtain ⟨origin, columnOffset, rowOffset, hbuild⟩ := build_of_hasLimits hlimits
        rw [hbuild, hcolumns, hrows]
        exact ⟨_, rfl⟩
      · simp only [not_exists] at hlimits
        obtain ⟨result, hresult, -⟩ := build_of_not_hasLimits hlimits
        exact ⟨result, hresult⟩
    refine ⟨result, hresult, fun g hg => ?_⟩
    rw [hg] at hresult
    obtain ⟨low, high, hlimits, hcolumnsPos, hrowsPos, hcolumns, hrows, hsamples⟩ :=
      exists_limits_of_build hresult
    rw [GridCoverage.exists_envelope_iff, GridCoverage.exists_corners_iff
      (ne_zero_of_toNat_pos (hrows ▸ hrowsPos)) (ne_zero_of_toNat_pos (hcolumns ▸ hcolumnsPos))]
    intro values hvalues
    have hinline : parts.samples.isSome = true := by rw [(hsamples values).1 hvalues]; rfl
    have hcells := (hfits low high hlimits).2.2 hinline hcolumnsPos hrowsPos
    rw [← hcolumns, ← hrows] at hcells
    exact Int.ofNat_le.1 hcells
  · rintro ⟨result, hresult, henvelope⟩ low high hlimits
    obtain ⟨origin, columnOffset, rowOffset, hbuild⟩ := build_of_hasLimits hlimits
    rw [hbuild] at hresult
    obtain ⟨columns, hcolumns, hresult⟩ := exists_of_bind_eq_ok hresult
    obtain ⟨rows, hrows, hresult⟩ := exists_of_bind_eq_ok hresult
    rw [span_eq_ok_iff] at hcolumns hrows
    refine ⟨hcolumns.1, hrows.1, fun hinline hcolumnsPos hrowsPos => ?_⟩
    rw [← hcolumns.2] at hcolumnsPos
    rw [← hrows.2] at hrowsPos
    obtain ⟨values, hvalues⟩ := Option.isSome_iff_exists.1 hinline
    have hgrid : parts.extended origin columnOffset rowOffset columns rows = .ok
        ⟨origin, columnOffset, rowOffset, rows.toUInt64, columns.toUInt64, .inline values⟩ :=
      extended_eq_ok_iff.2 ⟨hcolumnsPos, hrowsPos, _, gridSamples?_eq_inline_iff.2 hvalues, rfl⟩
    rw [hgrid] at hresult
    have hcolumns' := toNat_toUInt64 hcolumnsPos
    have hrows' := toNat_toUInt64 hrowsPos
    have hcorners := GridCoverage.exists_envelope_iff.1 (henvelope _ (Except.ok.inj hresult).symm)
    rw [GridCoverage.exists_corners_iff (ne_zero_of_toNat_pos (hrows' ▸ hrowsPos))
      (ne_zero_of_toNat_pos (hcolumns' ▸ hcolumnsPos))] at hcorners
    show (high.2.toInt - low.2.toInt + 1) * (high.1.toInt - low.1.toInt + 1) ≤ UInt64.size
    rw [← hcolumns.2, ← hrows.2, ← hcolumns', ← hrows']
    exact Int.ofNat_le.2 (hcorners values rfl)

/-- **Cells and their samples.**  A grid that is put together without an overflow has as many columns
and rows as there are between its limits.  The index of a cell is its number, and there is none if
that does not fit in a machine word; so no two cells share an index.  The numbers of all cells fit if
and only if those of the corners do, which is so for at most `UInt64.size` cells.  A cell has a sample
if samples are inline and one has its number.  Other lookups fail, those of cells whose number does
not fit by an overflow; and just those grids with inline samples that have more than `UInt64.size`
cells have no corners and no envelope. -/
theorem sampleAt_of_build {g : GridCoverage} (h : parts.build = .ok (.ok (some g))) :
    (∃ low high, parts.HasLimits low high ∧
      (g.columns.toNat : Int) = high.1.toInt - low.1.toInt + 1 ∧
      (g.rows.toNat : Int) = high.2.toInt - low.2.toInt + 1) ∧
    (∀ row column index,
      g.sampleIndex row column = .ok index ↔ index.toNat = g.cellNumber row column) ∧
    (∀ row column row' column' index, g.HasCell row column → g.HasCell row' column' →
      g.sampleIndex row column = .ok index → g.sampleIndex row' column' = .ok index →
      row = row' ∧ column = column') ∧
    [g.cellCount ≤ UInt64.size,
      ∀ row column, g.HasCell row column → g.cellNumber row column < UInt64.size,
      ∀ row column, g.HasCell row column → ∃ index, g.sampleIndex row column = .ok index,
      ∀ cell ∈ g.cornerCells, ∃ index, g.sampleIndex cell.1 cell.2 = .ok index].TFAE ∧
    (∀ row column value, g.sampleAt row column = .ok (.ok value) ↔ g.HasCell row column ∧
      g.cellNumber row column < UInt64.size ∧
      ∃ values, g.samples = .inline values ∧ values[g.cellNumber row column]? = some value) ∧
    (∀ row column, (∃ result, g.sampleAt row column = .ok result) ↔
      (g.HasCell row column → ∀ values, g.samples = .inline values →
        g.cellNumber row column < UInt64.size)) ∧
    ((∃ points, g.corners = .ok points) ↔
      ∀ values, g.samples = .inline values → g.cellCount ≤ UInt64.size) ∧
    ((∃ e, g.envelope = .ok e) ↔
      ∀ values, g.samples = .inline values → g.cellCount ≤ UInt64.size) := by
  obtain ⟨low, high, hlimits, hcolumnsPos, hrowsPos, hcolumns, hrows, -⟩ := exists_limits_of_build h
  have hcolumnsNe := ne_zero_of_toNat_pos (hcolumns ▸ hcolumnsPos)
  have hrowsNe := ne_zero_of_toNat_pos (hrows ▸ hrowsPos)
  have hcorners := GridCoverage.exists_corners_iff hrowsNe hcolumnsNe
  exact ⟨⟨low, high, hlimits, hcolumns, hrows⟩, fun _ _ _ => GridCoverage.sampleIndex_eq_ok_iff,
    fun _ _ _ _ _ => GridCoverage.eq_of_sampleIndex, GridCoverage.cells_tfae hrowsNe hcolumnsNe,
    fun _ _ _ => GridCoverage.sampleAt_eq_ok_iff, fun _ _ => GridCoverage.exists_sampleAt_iff,
    hcorners, GridCoverage.exists_envelope_iff.trans hcorners⟩

end GridParts

/-! ### Grids with two samples -/

/-- A grid from `(0, 0)` on, of which the first two cells have samples. -/
def twoSamples (lastColumn lastRow : Int64) : GridParts :=
  { origin := some ⟨0, 0, 0⟩
    offsetVectors := [⟨1, 0, 0⟩, ⟨0, 1, 0⟩]
    high := some [lastColumn, lastRow]
    samples := some [0, 7] }

/-- The same grid, put together. -/
def twoSamplesGrid (columns rows : UInt64) : GridCoverage :=
  ⟨⟨0, 0, 0⟩, ⟨1, 0, 0⟩, ⟨0, 1, 0⟩, rows, columns, .inline [0, 7]⟩

/-- In the largest square grid only cells of the first row have samples, and it has corners. -/
theorem sampleAt_largestSquare :
    (twoSamples 4294967295 4294967295).build =
      .ok (.ok (some (twoSamplesGrid 4294967296 4294967296))) ∧
    (twoSamplesGrid 4294967296 4294967296).cellCount = UInt64.size ∧
    (∃ points, (twoSamplesGrid 4294967296 4294967296).corners = .ok points) ∧
    (twoSamplesGrid 4294967296 4294967296).sampleAt 0 1 = .ok (.ok 7) ∧
    ∀ row column value,
      (twoSamplesGrid 4294967296 4294967296).sampleAt row column = .ok (.ok value) → row = 0 := by
  have hbuild : (twoSamples 4294967295 4294967295).build =
      .ok (.ok (some (twoSamplesGrid 4294967296 4294967296))) := rfl
  have hcells : (twoSamplesGrid 4294967296 4294967296).cellCount = UInt64.size := by decide
  obtain ⟨-, -, -, -, hsamples, -, hcorners, -⟩ := GridParts.sampleAt_of_build hbuild
  refine ⟨hbuild, hcells, hcorners.2 fun _ _ => Nat.le_of_eq hcells,
    (hsamples 0 1 7).2 ⟨by decide, by decide, _, rfl, rfl⟩, fun row column value h => ?_⟩
  obtain ⟨-, -, values, hvalues, hvalue⟩ := (hsamples row column value).1 h
  obtain rfl := GridSamples.inline.inj hvalues
  have hnumber : row.toNat * 4294967296 + column.toNat < 2 := (List.getElem?_eq_some_iff.1 hvalue).1
  have hzero : row.toNat = 0 := by omega
  exact UInt64.toNat_inj.1 hzero

/-- A grid of two samples has a corner numbered `UInt64.size + 1`.  Looking it up does not fail for
want of a sample, but overflows, so the grid has no corners and no envelope. -/
theorem sampleAt_tooLarge :
    (twoSamples 274176 67280421310721).build =
      .ok (.ok (some (twoSamplesGrid 274177 67280421310722))) ∧
    (67280421310721, 0) ∈ (twoSamplesGrid 274177 67280421310722).cornerCells ∧
    (twoSamplesGrid 274177 67280421310722).cellNumber 67280421310721 0 = UInt64.size + 1 ∧
    (twoSamplesGrid 274177 67280421310722).sampleIndex 67280421310721 0 = .error .multiplication ∧
    (twoSamplesGrid 274177 67280421310722).sampleAt 67280421310721 0 = .error .multiplication ∧
    (twoSamplesGrid 274177 67280421310722).corners = .error .multiplication ∧
    (twoSamplesGrid 274177 67280421310722).envelope = .error .multiplication :=
  ⟨rfl, by decide, by decide, rfl, rfl, rfl, rfl⟩

end CityScene.Document
