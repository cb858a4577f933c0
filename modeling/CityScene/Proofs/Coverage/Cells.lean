import CityScene.Document.Grid
import CityScene.Proofs.Results
import Mathlib.Data.List.TFAE
import Mathlib.Tactic.TFAE

/-!
# Cells of a grid

The cells of a grid are numbered row by row, from zero on (`cellNumber`), up to their count; no two
have the same number (`eq_of_cellNumber`).  The sample of a cell is looked up under that number if it
fits in a machine word; else the lookup overflows (`sampleIndex_eq_ok_iff`).

A grid of at most `UInt64.size` cells never notices.  One cell more, and there is a cell whose number
does not fit.  The corner farthest from the origin has the greatest number of all, so the four corners
alone tell whether a grid is too large (`cells_tfae`, `exists_corners_iff`).
-/

namespace CityScene

namespace GridCoverage

variable {g : GridCoverage} {row column row' column' : UInt64}

/-- How many cells there are between the limits. -/
def cellCount (g : GridCoverage) : Nat :=
  g.rows.toNat * g.columns.toNat

/-- The cells, counted row by row. -/
def cellNumber (g : GridCoverage) (row column : UInt64) : Nat :=
  row.toNat * g.columns.toNat + column.toNat

def HasCell (g : GridCoverage) (row column : UInt64) : Prop :=
  row < g.rows ∧ column < g.columns

instance : Decidable (g.HasCell row column) :=
  inferInstanceAs (Decidable (_ ∧ _))

/-- The cells whose positions are the corners. -/
def cornerCells (g : GridCoverage) : List (UInt64 × UInt64) :=
  let lastRow := if g.rows = 0 then 0 else g.rows - 1
  let lastColumn := if g.columns = 0 then 0 else g.columns - 1
  [(0, 0), (0, lastColumn), (lastRow, lastColumn), (lastRow, 0)]

theorem corners_eq (g : GridCoverage) :
    g.corners = g.cornerCells.mapM fun cell => g.pointAt cell.1 cell.2 := by
  rw [corners, cornerCells]
  simp only [List.mapM_cons, List.mapM_nil, pure_bind, bind_assoc]

/-! ### Numbers of cells -/

theorem hasCell_iff : g.HasCell row column ↔
    row.toNat < g.rows.toNat ∧ column.toNat < g.columns.toNat := by
  rw [HasCell, UInt64.lt_iff_toNat_lt, UInt64.lt_iff_toNat_lt]

theorem cellNumber_lt (h : g.HasCell row column) : g.cellNumber row column < g.cellCount := by
  obtain ⟨hrow, hcolumn⟩ := hasCell_iff.1 h
  calc row.toNat * g.columns.toNat + column.toNat
      < row.toNat * g.columns.toNat + g.columns.toNat := Nat.add_lt_add_left hcolumn _
    _ = (row.toNat + 1) * g.columns.toNat := (Nat.succ_mul ..).symm
    _ ≤ g.rows.toNat * g.columns.toNat := Nat.mul_le_mul_right _ hrow

theorem cellNumber_div_mod (h : g.HasCell row column) :
    g.cellNumber row column / g.columns.toNat = row.toNat ∧
      g.cellNumber row column % g.columns.toNat = column.toNat := by
  have hcolumn := (hasCell_iff.1 h).2
  rw [cellNumber, Nat.add_comm]
  constructor
  · rw [Nat.add_mul_div_right _ _ (by omega), Nat.div_eq_of_lt hcolumn, Nat.zero_add]
  · rw [Nat.add_mul_mod_self_right, Nat.mod_eq_of_lt hcolumn]

theorem eq_of_cellNumber (h : g.HasCell row column) (h' : g.HasCell row' column')
    (hnumber : g.cellNumber row column = g.cellNumber row' column') :
    row = row' ∧ column = column' := by
  obtain ⟨hrow, hcolumn⟩ := cellNumber_div_mod h
  obtain ⟨hrow', hcolumn'⟩ := cellNumber_div_mod h'
  rw [hnumber] at hrow hcolumn
  exact ⟨UInt64.toNat_inj.1 (hrow.symm.trans hrow'),
    UInt64.toNat_inj.1 (hcolumn.symm.trans hcolumn')⟩

/-! ### Where samples are looked up -/

/-- **A sample is looked up under the number of its cell**, if that fits in a machine word. -/
theorem sampleIndex_eq_ok_iff {index : UInt64} :
    g.sampleIndex row column = .ok index ↔ index.toNat = g.cellNumber row column := by
  rw [sampleIndex, cellNumber]
  cases hproduct : Checked.mul row g.columns with
  | ok product =>
    rw [← Checked.mul_eq_ok_iff.1 hproduct]
    exact Checked.add_eq_ok_iff
  | error fault =>
    refine iff_of_false (fun h => by cases h) fun h => ?_
    have hlt : row.toNat * g.columns.toNat < UInt64.size :=
      Nat.lt_of_le_of_lt (Nat.le_add_right _ column.toNat) (h ▸ index.toNat_lt)
    have hfits := Checked.mul_eq_ok_iff.2 (UInt64.toNat_ofNat_of_lt' hlt)
    rw [hproduct] at hfits
    cases hfits

theorem exists_sampleIndex_iff :
    (∃ index, g.sampleIndex row column = .ok index) ↔ g.cellNumber row column < UInt64.size := by
  simp only [sampleIndex_eq_ok_iff]
  exact ⟨fun ⟨index, h⟩ => h ▸ index.toNat_lt, fun h => ⟨_, UInt64.toNat_ofNat_of_lt' h⟩⟩

/-- No two cells are looked up under the same index. -/
theorem eq_of_sampleIndex {index : UInt64} (h : g.HasCell row column)
    (h' : g.HasCell row' column') (hindex : g.sampleIndex row column = .ok index)
    (hindex' : g.sampleIndex row' column' = .ok index) : row = row' ∧ column = column' := by
  rw [sampleIndex_eq_ok_iff] at hindex hindex'
  exact eq_of_cellNumber h h' (hindex.symm.trans hindex')

theorem not_hasCell_iff : ¬ g.HasCell row column ↔ g.rows ≤ row ∨ g.columns ≤ column := by
  rw [HasCell, UInt64.lt_iff_toNat_lt, UInt64.lt_iff_toNat_lt, UInt64.le_iff_toNat_le,
    UInt64.le_iff_toNat_le]
  omega

theorem sampleAt_of_inline {values : List Float} (h : g.HasCell row column)
    (hsamples : g.samples = .inline values) :
    g.sampleAt row column = (g.sampleIndex row column).map fun index =>
      values[index.toNat]?.elim (.error (.outOfBounds row column g.rows g.columns)) .ok := by
  rw [sampleAt, hsamples]
  exact if_neg fun houtside => not_hasCell_iff.2 houtside h

/-- **The sample of a cell**, which must have one and a number that fits in a machine word. -/
theorem sampleAt_eq_ok_iff {value : Float} :
    g.sampleAt row column = .ok (.ok value) ↔ g.HasCell row column ∧
      g.cellNumber row column < UInt64.size ∧
      ∃ values, g.samples = .inline values ∧ values[g.cellNumber row column]? = some value := by
  by_cases hcell : g.HasCell row column
  · rw [and_iff_right hcell]
    cases hsamples : g.samples with
    | external file =>
      rw [sampleAt, hsamples, if_neg fun houtside => not_hasCell_iff.2 houtside hcell]
      exact iff_of_false (fun h => by cases h) fun ⟨_, _, h, _⟩ => by cases h
    | inline values =>
      rw [sampleAt_of_inline hcell hsamples, ← exists_sampleIndex_iff]
      cases hindex : g.sampleIndex row column with
      | error fault => exact iff_of_false (fun h => by cases h) fun ⟨⟨_, h⟩, _⟩ => by cases h
      | ok index =>
        rw [← sampleIndex_eq_ok_iff.1 hindex, and_iff_right ⟨index, rfl⟩]
        simp only [Except.map, GridSamples.inline.injEq, exists_eq_left']
        cases values[index.toNat]? <;> simp
  · rw [sampleAt, if_pos (not_hasCell_iff.1 hcell)]
    exact iff_of_false (fun h => by cases h) fun h => hcell h.1

/-- A lookup overflows only for inline samples and a cell whose number does not fit. -/
theorem exists_sampleAt_iff : (∃ result, g.sampleAt row column = .ok result) ↔
    (g.HasCell row column → ∀ values, g.samples = .inline values →
      g.cellNumber row column < UInt64.size) := by
  by_cases hcell : g.HasCell row column
  · rw [forall_prop_of_true hcell]
    cases hsamples : g.samples with
    | external file =>
      refine iff_of_true ?_ nofun
      rw [sampleAt, hsamples, if_neg fun houtside => not_hasCell_iff.2 houtside hcell]
      exact ⟨_, rfl⟩
    | inline values =>
      rw [sampleAt_of_inline hcell hsamples, exists_map_eq_ok_iff, exists_sampleIndex_iff]
      exact ⟨fun h _ _ => h, fun h => h values rfl⟩
  · rw [sampleAt, if_pos (not_hasCell_iff.1 hcell)]
    exact iff_of_true ⟨_, rfl⟩ fun h => absurd h hcell

theorem exists_pointAt_iff :
    (∃ p, g.pointAt row column = .ok p) ↔ ∃ result, g.sampleAt row column = .ok result :=
  exists_map_eq_ok_iff

/-- The position before the end of an axis. -/
theorem toNat_sub_one {n : UInt64} (h : n ≠ 0) : (n - 1).toNat + 1 = n.toNat := by
  have hpos : 0 < n.toNat := Nat.pos_of_ne_zero fun hn => h (UInt64.toNat_inj.1 hn)
  rw [UInt64.toNat_sub_of_le n 1 (UInt64.le_iff_toNat_le.2 hpos)]
  exact Nat.sub_add_cancel hpos

theorem eq_lastOf_iff {n last : UInt64} (hn : n ≠ 0) : last = n - 1 ↔ last.toNat + 1 = n.toNat := by
  rw [← toNat_sub_one hn, Nat.add_right_cancel_iff, UInt64.toNat_inj]

/-- The corners are in the first or last row and in the first or last column. -/
theorem mem_cornerCells {cell : UInt64 × UInt64} : cell ∈ g.cornerCells ↔
    (cell.1 = 0 ∨ cell.1.toNat + 1 = g.rows.toNat) ∧
      (cell.2 = 0 ∨ cell.2.toNat + 1 = g.columns.toNat) := by
  have hlast : ∀ n k : UInt64, k = 0 ∨ k.toNat + 1 = n.toNat ↔
      k = 0 ∨ k = if n = 0 then 0 else n - 1 := by
    intro n k
    split
    · next hn => simp [hn]
    · next hn => rw [eq_lastOf_iff hn]
  rw [hlast, hlast]
  simp only [cornerCells, List.mem_cons, List.not_mem_nil, or_false, Prod.ext_iff]
  constructor
  · rintro (⟨hrow, hcolumn⟩ | ⟨hrow, hcolumn⟩ | ⟨hrow, hcolumn⟩ | ⟨hrow, hcolumn⟩)
    · exact ⟨.inl hrow, .inl hcolumn⟩
    · exact ⟨.inl hrow, .inr hcolumn⟩
    · exact ⟨.inr hrow, .inr hcolumn⟩
    · exact ⟨.inr hrow, .inl hcolumn⟩
  · rintro ⟨hrow | hrow, hcolumn | hcolumn⟩
    · exact .inl ⟨hrow, hcolumn⟩
    · exact .inr (.inl ⟨hrow, hcolumn⟩)
    · exact .inr (.inr (.inr ⟨hrow, hcolumn⟩))
    · exact .inr (.inr (.inl ⟨hrow, hcolumn⟩))

theorem hasCell_of_mem_cornerCells {cell : UInt64 × UInt64} (hrows : g.rows ≠ 0)
    (hcolumns : g.columns ≠ 0) (h : cell ∈ g.cornerCells) : g.HasCell cell.1 cell.2 := by
  have hrow := toNat_sub_one hrows
  have hcolumn := toNat_sub_one hcolumns
  obtain ⟨hfirst, hsecond⟩ := mem_cornerCells.1 h
  rw [hasCell_iff]
  constructor
  · rcases hfirst with hzero | hlast
    · rw [hzero, UInt64.toNat_zero]
      omega
    · omega
  · rcases hsecond with hzero | hlast
    · rw [hzero, UInt64.toNat_zero]
      omega
    · omega

/-- The number of the corner farthest from the origin is the greatest. -/
theorem cellNumber_lastCorner (hrows : g.rows ≠ 0) (hcolumns : g.columns ≠ 0) :
    g.cellNumber (g.rows - 1) (g.columns - 1) + 1 = g.cellCount := by
  rw [cellNumber, cellCount, Nat.add_assoc, toNat_sub_one hcolumns, ← Nat.succ_mul,
    Nat.succ_eq_add_one, toNat_sub_one hrows]

/-- **When a grid is not too large** for its cells to have samples of their own. -/
theorem cells_tfae (hrows : g.rows ≠ 0) (hcolumns : g.columns ≠ 0) :
    [g.cellCount ≤ UInt64.size,
      ∀ row column, g.HasCell row column → g.cellNumber row column < UInt64.size,
      ∀ row column, g.HasCell row column → ∃ index, g.sampleIndex row column = .ok index,
      ∀ cell ∈ g.cornerCells, ∃ index, g.sampleIndex cell.1 cell.2 = .ok index].TFAE := by
  simp only [exists_sampleIndex_iff]
  tfae_have 1 → 2 := fun h _ _ hcell => Nat.lt_of_lt_of_le (cellNumber_lt hcell) h
  tfae_have 2 → 3 := fun h => h
  tfae_have 3 → 4 := fun h cell hcell => h _ _ (hasCell_of_mem_cornerCells hrows hcolumns hcell)
  tfae_have 4 → 1 := by
    intro h
    rw [← cellNumber_lastCorner hrows hcolumns]
    exact h (g.rows - 1, g.columns - 1)
      (mem_cornerCells.2 ⟨.inr (toNat_sub_one hrows), .inr (toNat_sub_one hcolumns)⟩)
  tfae_finish

/-- **The corners of a grid with inline samples** are found if it is not too large. -/
theorem exists_corners_iff (hrows : g.rows ≠ 0) (hcolumns : g.columns ≠ 0) :
    (∃ points, g.corners = .ok points) ↔
      ∀ values, g.samples = .inline values → g.cellCount ≤ UInt64.size := by
  have hfits := (cells_tfae hrows hcolumns).out 0 3
  rw [corners_eq, exists_mapM_eq_ok_iff, hfits]
  simp only [exists_pointAt_iff, exists_sampleAt_iff, exists_sampleIndex_iff]
  constructor
  · exact fun h values hvalues cell hcell =>
      h cell hcell (hasCell_of_mem_cornerCells hrows hcolumns hcell) values hvalues
  · exact fun h cell hcell _ values hvalues => h values hvalues cell hcell

theorem exists_envelope_iff :
    (∃ e, g.envelope = .ok e) ↔ ∃ points, g.corners = .ok points :=
  exists_map_eq_ok_iff

end GridCoverage

end CityScene
