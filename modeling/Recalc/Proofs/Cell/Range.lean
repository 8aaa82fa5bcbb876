/-
Recalc/Proofs/Cell/Range.lean

Rectangles by offsets.  In a range with its corners in order, the cells that it contains
are those at an offset below its height and its width from the first one:

    i < r.rows → j < r.columns → r.contains (shift r.first i j).

So the cells that are listed, and the first one, are contained.  On one sheet the cells
come row by row, hence a rectangle lies between its corners (`isLE_corners_of_contains`), and
what a map has in a range is found between them (`mem_entries`).
-/
import Recalc.Cell.Range

namespace Recalc.Coordinate

variable {a b : Coordinate}

/-- On one sheet, rows come before columns. -/
theorem compare_of_sheet_eq (h : a.sheet = b.sheet) :
    compare a b = (compare a.row b.row).then (compare a.column b.column) := by
  have horder : compare a b = (compare a.sheet b.sheet).then
      ((compare a.row b.row).then (compare a.column b.column)) := rfl
  rw [horder, h, Std.ReflOrd.compare_self]
  rfl

theorem isLE_compare (h : a.sheet = b.sheet) (hrow : a.row ≤ b.row) (hcolumn : a.column ≤ b.column) :
    (compare a b).isLE := by
  rw [compare_of_sheet_eq h]
  rcases Nat.lt_or_eq_of_le hrow with hlt | heq
  · rw [Nat.compare_eq_lt.mpr hlt]
    rfl
  · rw [heq, Std.ReflOrd.compare_self]
    exact Nat.isLE_compare.mpr hcolumn

end Recalc.Coordinate

namespace Recalc.CellRange

variable {r : CellRange} {c : Coordinate}

/-- The corners are in order. -/
structure Ordered (r : CellRange) : Prop where
  column : r.first.column ≤ r.last.column
  row : r.first.row ≤ r.last.row

theorem WellFormed.ordered (h : r.WellFormed) : r.Ordered := ⟨h.column.2.1, h.row.2.1⟩

/-- One cell is a range with its corners in order. -/
theorem ordered_single (c : Coordinate) : Ordered ⟨c, c⟩ := ⟨Nat.le_refl _, Nat.le_refl _⟩

/-! ### Containment -/

theorem contains_iff :
    r.contains c = true ↔ c.sheet = r.first.sheet ∧
      (r.first.row ≤ c.row ∧ c.row ≤ r.last.row) ∧
      (r.first.column ≤ c.column ∧ c.column ≤ r.last.column) := by
  simp only [contains, Bool.and_eq_true, beq_iff_eq, decide_eq_true_eq, and_assoc]

/-- **A rectangle lies between its corners**, the last one being taken on the sheet of the first. -/
theorem isLE_corners_of_contains (hc : r.contains c = true) :
    (compare r.first c).isLE ∧ (compare c { r.last with sheet := r.sheet }).isLE := by
  obtain ⟨hsheet, ⟨hrow, hrow'⟩, ⟨hcolumn, hcolumn'⟩⟩ := contains_iff.mp hc
  exact ⟨Coordinate.isLE_compare hsheet.symm hrow hcolumn,
    Coordinate.isLE_compare hsheet hrow' hcolumn'⟩

theorem between_of_contains (h : r.WellFormed) (hc : r.contains c = true) :
    (compare r.first c).isLE ∧ (compare c r.last).isLE := by
  have hcorners := isLE_corners_of_contains hc
  rwa [sheet, ← h.sheet] at hcorners

/-- One cell contains itself only. -/
theorem contains_single {d : Coordinate} : contains ⟨c, c⟩ d = true ↔ d = c := by
  rw [contains_iff]
  constructor
  · rintro ⟨hs, ⟨hr, hr'⟩, ⟨hc, hc'⟩⟩
    obtain ⟨sheet, column, row⟩ := d
    exact congr (congr (congrArg Coordinate.mk hs) (Nat.le_antisymm hc' hc))
      (Nat.le_antisymm hr' hr)
  · rintro rfl
    exact ⟨rfl, ⟨Nat.le_refl _, Nat.le_refl _⟩, ⟨Nat.le_refl _, Nat.le_refl _⟩⟩

/-- **Offsets below the height and the width stay inside.** -/
theorem contains_shift (h : r.Ordered) {i j : Nat} (hi : i < r.rows) (hj : j < r.columns) :
    r.contains (shift r.first i j) = true := by
  have hrow := h.row
  have hcolumn := h.column
  rw [rows] at hi
  rw [columns] at hj
  rw [contains_iff]
  refine ⟨rfl, ⟨Nat.le_add_right _ _, ?_⟩, ⟨Nat.le_add_right _ _, ?_⟩⟩
  · show r.first.row + i ≤ r.last.row
    omega
  · show r.first.column + j ≤ r.last.column
    omega

theorem contains_first (h : r.Ordered) : r.contains r.first = true :=
  contains_shift h (Nat.succ_pos _) (Nat.succ_pos _)

/-- The cells listed are contained. -/
theorem contains_of_mem_cells (h : r.Ordered) (hc : c ∈ r.cells) : r.contains c = true := by
  obtain ⟨k, hk, rfl⟩ := List.mem_map.mp hc
  refine contains_shift h ?_ (Nat.mod_lt _ (Nat.succ_pos _))
  exact Nat.div_lt_of_lt_mul (by rw [Nat.mul_comm]; exact List.mem_range.mp hk)

theorem offset?_of_contains (h : r.contains c = true) :
    r.offset? c = some (c.row - r.first.row, c.column - r.first.column) := if_pos h

/-- The offset of a contained cell leads back to it. -/
theorem offset?_eq_some_iff {i j : Nat} :
    r.offset? c = some (i, j) ↔ r.contains c = true ∧ c = shift r.first i j := by
  rw [offset?]
  split
  case isFalse hc => simp [hc]
  case isTrue hc =>
    obtain ⟨sheet, column, row⟩ := c
    obtain ⟨hsheet, hrow, hcolumn⟩ := contains_iff.mp hc
    dsimp only at hsheet hrow hcolumn
    subst hsheet
    simp only [hc, true_and, shift, Option.some.injEq, Prod.mk.injEq, Coordinate.mk.injEq]
    omega

/-- The offset of a cell is below the height and the width. -/
theorem lt_of_offset?_eq_some {i j : Nat} (h : r.offset? c = some (i, j)) :
    i < r.rows ∧ j < r.columns := by
  obtain ⟨hc, rfl⟩ := offset?_eq_some_iff.mp h
  obtain ⟨-, hrow, hcolumn⟩ := contains_iff.mp hc
  simp only [shift] at hrow hcolumn
  rw [rows, columns]
  omega

/-! ### The cells in order -/

/-- The cell at row `i` and column `j` of the range is the one numbered `i * columns + j`. -/
theorem cellAt_mul_add (i : Nat) {j : Nat} (hj : j < r.columns) :
    r.cellAt (i * r.columns + j) = shift r.first i j := by
  rw [cellAt, Nat.mul_comm, Nat.mul_add_div (by omega), Nat.div_eq_of_lt hj, Nat.mul_add_mod,
    Nat.mod_eq_of_lt hj]
  rfl

theorem mul_add_lt_size {i j : Nat} (hi : i < r.rows) (hj : j < r.columns) :
    i * r.columns + j < r.size :=
  calc i * r.columns + j < i * r.columns + r.columns := Nat.add_lt_add_left hj _
    _ = (i + 1) * r.columns := (Nat.succ_mul _ _).symm
    _ ≤ r.rows * r.columns := Nat.mul_le_mul_right _ hi

/-- **The cells listed are those contained.** -/
theorem mem_cells_iff (h : r.Ordered) : c ∈ r.cells ↔ r.contains c = true := by
  refine ⟨contains_of_mem_cells h, fun hc => ?_⟩
  obtain ⟨hsheet, hrow, hcolumn⟩ := contains_iff.mp hc
  have hi : c.row - r.first.row < r.rows := by
    rw [rows]
    omega
  have hj : c.column - r.first.column < r.columns := by
    rw [columns]
    omega
  refine List.mem_map.mpr ⟨_, List.mem_range.mpr (mul_add_lt_size hi hj), ?_⟩
  rw [cellAt_mul_add _ hj]
  exact ((offset?_eq_some_iff.mp (offset?_of_contains hc)).2).symm

theorem compare_cellAt {k l : Nat} (h : k < l) : compare (r.cellAt k) (r.cellAt l) = .lt := by
  have hdiv : k / r.columns ≤ l / r.columns := Nat.div_le_div_right (Nat.le_of_lt h)
  have hk := Nat.div_add_mod k r.columns
  have hl := Nat.div_add_mod l r.columns
  have hsheet : (r.cellAt k).sheet = (r.cellAt l).sheet := rfl
  rw [Coordinate.compare_of_sheet_eq hsheet, Ordering.then_eq_lt, Nat.compare_eq_lt,
    Nat.compare_eq_eq, Nat.compare_eq_lt]
  show r.first.row + _ < r.first.row + _ ∨ r.first.row + _ = r.first.row + _ ∧
    r.first.column + _ < r.first.column + _
  rcases Nat.lt_or_eq_of_le hdiv with hlt | heq
  · exact .inl (Nat.add_lt_add_left hlt _)
  · rw [heq] at hk
    exact .inr ⟨congrArg _ heq, by omega⟩

/-- The cells are listed in the order of coordinates. -/
theorem pairwise_cells (r : CellRange) : r.cells.Pairwise fun a b => compare a b = .lt :=
  List.pairwise_map.mpr (List.pairwise_lt_range.imp compare_cellAt)

/-! ### Maps of cells -/

/-- A condition that holds of everything before something it holds of cuts a list in two. -/
theorem takeWhile_eq_filter {α : Type} {p : α → Bool} {l : List α}
    (h : l.Pairwise fun a b => p b = true → p a = true) : l.takeWhile p = l.filter p := by
  induction h with
  | nil => rfl
  | @cons a l ha _ ih =>
    by_cases hp : p a = true
    · rw [List.takeWhile_cons_of_pos hp, List.filter_cons_of_pos hp, ih]
    · rw [List.takeWhile_cons_of_neg hp, List.filter_cons_of_neg hp]
      exact (List.filter_eq_nil_iff.mpr fun b hb hpb => hp (ha b hb hpb)).symm

theorem dropWhile_eq_filter {α : Type} {p : α → Bool} {l : List α}
    (h : l.Pairwise fun a b => p b = true → p a = true) : l.dropWhile p = l.filter fun a => !p a := by
  induction h with
  | nil => rfl
  | @cons a l ha _ ih =>
    by_cases hp : p a = true
    · rw [List.dropWhile_cons_of_pos hp, ih, List.filter_cons_of_neg (by simp [hp])]
    · rw [List.dropWhile_cons_of_neg hp, List.filter_eq_self.mpr]
      rintro b hb
      rcases List.mem_cons.mp hb with rfl | hb
      · simp [hp]
      · simpa using fun hpb => hp (ha b hb hpb)

variable {α : Type} {m : Std.TreeMap Coordinate α} {v : α}

/-- **The entries between two cells** are cut out of the row of all entries. -/
theorem between_eq_filter (m : Std.TreeMap Coordinate α) (first last : Coordinate) :
    between m first last = m.toList.filter fun e =>
      (compare e.1 last).isLE && !(compare e.1 first).isLT := by
  have hordered := m.ordered_keys_toList
  rw [between, dropWhile_eq_filter, takeWhile_eq_filter, List.filter_filter]
  · refine (hordered.filter _).imp fun hab hb => ?_
    exact Std.TransCmp.isLE_trans (Ordering.isLE_of_eq_lt hab) hb
  · refine hordered.imp fun hab hb => ?_
    rw [Ordering.isLT_iff_eq_lt] at hb ⊢
    exact Std.TransCmp.lt_trans hab hb

theorem pairwise_entries (r : CellRange) (m : Std.TreeMap Coordinate α) :
    (r.entries m).Pairwise fun a b => compare a.1 b.1 = .lt := by
  rw [entries, between_eq_filter]
  exact (m.ordered_keys_toList.filter _).filter _

/-- **The entries that a map has in a range**: none lies outside of what is looked through. -/
theorem mem_entries : (c, v) ∈ r.entries m ↔ r.contains c = true ∧ m[c]? = some v := by
  rw [entries, between_eq_filter, List.mem_filter, List.mem_filter,
    Std.TreeMap.mem_toList_iff_getElem?_eq_some]
  constructor
  · rintro ⟨⟨hv, -⟩, hc⟩
    exact ⟨hc, hv⟩
  · rintro ⟨hc, hv⟩
    obtain ⟨hfirst, hlast⟩ := isLE_corners_of_contains hc
    refine ⟨⟨hv, ?_⟩, hc⟩
    rw [Bool.and_eq_true, Ordering.not_isLT_eq_isGE, Std.OrientedCmp.isGE_iff_isLE]
    exact ⟨hlast, hfirst⟩

end Recalc.CellRange

namespace Recalc.Target

/-- A range pointed at is well-formed. -/
def WellFormed : Target → Prop
  | .cell _ => True
  | .range r => r.WellFormed

/-- What is pointed at, as a range. -/
def toRange : Target → CellRange
  | .cell c => ⟨c, c⟩
  | .range r => r

theorem contains_toRange (t : Target) (c : Coordinate) :
    t.toRange.contains c = true ↔ t.contains c = true := by
  cases t with
  | cell d => exact CellRange.contains_single.trans (eq_comm.trans beq_iff_eq.symm)
  | range r => exact Iff.rfl

theorem WellFormed.ordered {t : Target} (h : t.WellFormed) : t.toRange.Ordered := by
  cases t with
  | cell c => exact CellRange.ordered_single c
  | range r => exact CellRange.WellFormed.ordered h

end Recalc.Target
