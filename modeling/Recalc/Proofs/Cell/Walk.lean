/-
Recalc/Proofs/Cell/Walk.lean

A walk over a range meets every cell once.  `Walk.before r k` is where a walk has to stand
when `k` cells are passed, and one step leads from there to the next:

    (before r k).next? r = some (r.cellAt k, before r (k + 1))      for k < r.size.

So the first `n` steps meet the first `n` cells (`firstCells_eq`).  The steps within a row,
at its end and at the end of the range are the three cases of `next?_before`.
-/
import Mathlib.Data.Set.Function
import Recalc.Proofs.Cell.Range

namespace Recalc.CellRange

variable {r : CellRange}

theorem length_cells (r : CellRange) : r.cells.length = r.size := by
  rw [cells, List.length_map, List.length_range]

theorem drop_cells {k : Nat} (h : k < r.size) :
    r.cells.drop k = r.cellAt k :: r.cells.drop (k + 1) := by
  rw [List.drop_eq_getElem_cons (by rwa [length_cells])]
  simp only [cells, List.getElem_map, List.getElem_range]

/-! ### One step -/

namespace Walk

/-- Where a walk stands when `k` cells are passed. -/
def before (r : CellRange) (k : Nat) : Walk :=
  if k < r.size then ⟨(r.cellAt k).column, (r.cellAt k).row, false⟩
  else ⟨r.last.column, r.last.row, true⟩

theorem before_of_lt {k : Nat} (h : k < r.size) :
    before r k = ⟨(r.cellAt k).column, (r.cellAt k).row, false⟩ := if_pos h

theorem before_size (r : CellRange) : before r r.size = ⟨r.last.column, r.last.row, true⟩ :=
  if_neg (Nat.lt_irrefl _)

theorem before_mul_add {i j : Nat} (hi : i < r.rows) (hj : j < r.columns) :
    before r (i * r.columns + j) = ⟨r.first.column + j, r.first.row + i, false⟩ := by
  rw [before_of_lt (mul_add_lt_size hi hj), cellAt_mul_add i hj]
  rfl

theorem start_eq (r : CellRange) : start r = before r 0 := by
  have h := before_mul_add (r := r) (i := 0) (j := 0) (Nat.succ_pos _) (Nat.succ_pos _)
  rw [Nat.zero_mul] at h
  exact h.symm

/-- **A step passes one cell.** -/
theorem next?_before (h : r.Ordered) {k : Nat} (hk : k < r.size) :
    (before r k).next? r = some (r.cellAt k, before r (k + 1)) := by
  have hrow := h.row
  have hcolumn := h.column
  have hrows : r.rows = r.last.row - r.first.row + 1 := rfl
  have hcolumns : r.columns = r.last.column - r.first.column + 1 := rfl
  -- the number of the cell by its row and its column in the range
  obtain ⟨i, j, hi, hj, rfl⟩ : ∃ i j, i < r.rows ∧ j < r.columns ∧ k = i * r.columns + j :=
    ⟨k / r.columns, k % r.columns, Nat.div_lt_of_lt_mul (by rwa [Nat.mul_comm]),
      Nat.mod_lt _ (Nat.succ_pos _), (Nat.div_add_mod' _ _).symm⟩
  rw [before_mul_add hi hj, cellAt_mul_add i hj, next?, if_neg Bool.false_ne_true]
  refine congrArg (fun w => some (_, w)) ?_
  by_cases hend : j + 1 < r.columns
  case pos =>
    -- within a row
    rw [if_neg (by dsimp only; omega), if_pos (by dsimp only; omega)]
    exact (before_mul_add hi hend).symm
  case neg =>
    have hnext : i * r.columns + j + 1 = (i + 1) * r.columns + 0 := by
      rw [Nat.succ_mul]
      omega
    rw [hnext]
    by_cases hlast : i + 1 < r.rows
    case pos =>
      -- at the end of a row
      rw [if_neg (by dsimp only; omega), if_neg (by dsimp only; omega),
        before_mul_add hlast (Nat.succ_pos _)]
      rfl
    case neg =>
      -- at the last cell
      have hsize : (i + 1) * r.columns + 0 = r.size := by
        rw [size, show i + 1 = r.rows by omega, Nat.add_zero]
      rw [if_pos ⟨by dsimp only; omega, by dsimp only; omega⟩, hsize, before_size,
        show r.first.column + j = r.last.column by omega,
        show r.first.row + i = r.last.row by omega]

/-- Behind the last cell there is no step. -/
theorem next?_before_size (r : CellRange) : (before r r.size).next? r = none := by
  rw [before_size]
  rfl

/-! ### The whole walk -/

/-- **Steps from the `k`-th cell on meet the cells from there on.** -/
theorem cells_before (h : r.Ordered) (n : Nat) {k : Nat} (hk : k ≤ r.size) :
    (before r k).cells r n = (r.cells.drop k).take n := by
  -- on the steps left; each of them moves `k` on, until the size is reached
  induction n generalizing k with
  | zero => rfl
  | succ n ih =>
    rcases Nat.lt_or_eq_of_le hk with hlt | rfl
    · rw [cells, next?_before h hlt, drop_cells hlt, List.take_succ_cons]
      exact congrArg _ (ih hlt)
    · rw [cells, next?_before_size, List.drop_of_length_le (Nat.le_of_eq (length_cells r)),
        List.take_nil]

end Walk

/-- **A walk meets the cells in the order of their numbers, and no other.** -/
theorem firstCells_eq (h : r.Ordered) (n : Nat) : r.firstCells n = r.cells.take n := by
  rw [firstCells, Walk.start_eq, Walk.cells_before h n (Nat.zero_le _), List.drop_zero]

/-! ### Offsets along the walk -/

theorem offset?_shift (h : r.Ordered) {i j : Nat} (hi : i < r.rows) (hj : j < r.columns) :
    r.offset? (shift r.first i j) = some (i, j) :=
  offset?_eq_some_iff.mpr ⟨contains_shift h hi hj, rfl⟩

/-- The pairs of a row and a column of the range. -/
def offsets (r : CellRange) : Set (Nat × Nat) := {p | p.1 < r.rows ∧ p.2 < r.columns}

/-- **Offsets tell the cells of a range apart and take every value below its height and
width.** -/
theorem bijOn_offset? (h : r.Ordered) :
    Set.BijOn r.offset? {c | r.contains c = true} (some '' r.offsets) := by
  refine ⟨fun c hc => ?_, fun c hc d hd heq => ?_, ?_⟩
  · have hoffset := offset?_of_contains hc
    exact ⟨_, lt_of_offset?_eq_some hoffset, hoffset.symm⟩
  · -- both cells are where the one offset leads
    have hoffset := offset?_of_contains hc
    rw [(offset?_eq_some_iff.mp hoffset).2]
    exact (offset?_eq_some_iff.mp (heq.symm.trans hoffset)).2.symm
  · rintro _ ⟨⟨i, j⟩, ⟨hi, hj⟩, rfl⟩
    exact ⟨shift r.first i j, contains_shift h hi hj, offset?_shift h hi hj⟩

/-- In one range, offsets are ordered as the cells are. -/
theorem lex_of_compare {c d : Coordinate} {p q : Nat × Nat} (hc : r.offset? c = some p)
    (hd : r.offset? d = some q) (h : compare c d = .lt) : Prod.Lex (· < ·) (· < ·) p q := by
  obtain ⟨-, rfl⟩ := offset?_eq_some_iff.mp hc
  obtain ⟨-, rfl⟩ := offset?_eq_some_iff.mp hd
  have hsheet : (shift r.first p.1 p.2).sheet = (shift r.first q.1 q.2).sheet := rfl
  rw [Coordinate.compare_of_sheet_eq hsheet, Ordering.then_eq_lt, Nat.compare_eq_lt,
    Nat.compare_eq_eq, Nat.compare_eq_lt] at h
  dsimp only [shift] at h
  rw [Prod.lex_def]
  omega

/-- **Offsets increase along the cells**, rows before columns. -/
theorem pairwise_offset? (h : r.Ordered) :
    r.cells.Pairwise fun c d => ∃ p q, r.offset? c = some p ∧ r.offset? d = some q ∧
      Prod.Lex (· < ·) (· < ·) p q := by
  refine (pairwise_cells r).imp_of_mem fun hc hd hcompare => ?_
  have hp := offset?_of_contains (contains_of_mem_cells h hc)
  have hq := offset?_of_contains (contains_of_mem_cells h hd)
  exact ⟨_, _, hp, hq, lex_of_compare hp hq hcompare⟩

/-! ### The enumeration -/

theorem expand_eq_ok_iff {limit : Nat} {out : List Coordinate} :
    r.expand limit = .ok out ↔ r.size ≤ limit ∧ out = r.cells := by
  rw [expand]
  split
  case isTrue h => simp [h, eq_comm]
  case isFalse h => simp [h]

/-- What is known of a range whose cells are enumerated. -/
structure IsEnumerated (r : CellRange) : Prop where
  /-- A walk meets the cells one by one and stops behind the last one. -/
  walk : ∀ n, r.firstCells n = r.cells.take n
  /-- The cells are those contained. -/
  mem : ∀ c, c ∈ r.cells ↔ r.contains c = true
  /-- They come in the order of coordinates, hence each of them once. -/
  increasing : r.cells.Pairwise fun c d => compare c d = .lt
  length : r.cells.length = r.size
  /-- They are given in full unless there are too many. -/
  expand : ∀ limit out, r.expand limit = .ok out ↔ r.size ≤ limit ∧ out = r.cells
  /-- Other cells have no offset. -/
  outside : ∀ c, r.offset? c = none ↔ r.contains c = false
  bijective : Set.BijOn r.offset? {c | r.contains c = true} (some '' r.offsets)
  lexicographic : r.cells.Pairwise fun c d => ∃ p q, r.offset? c = some p ∧
    r.offset? d = some q ∧ Prod.Lex (· < ·) (· < ·) p q

/-- **Every range with its corners in order is enumerated.** -/
theorem isEnumerated_of_ordered (h : r.Ordered) : r.IsEnumerated where
  walk := firstCells_eq h
  mem _ := mem_cells_iff h
  increasing := pairwise_cells r
  length := length_cells r
  expand _ _ := expand_eq_ok_iff
  outside c := by
    rw [offset?]
    split <;> simp_all
  bijective := bijOn_offset? h
  lexicographic := pairwise_offset? h

/-- A block of two columns and three rows that ends at the last cell of a sheet. -/
theorem isEnumerated_sheet_corner :
    Ordered ⟨⟨"Data", 16383, 1048574⟩, ⟨"Data", 16384, 1048576⟩⟩ ∧
    IsEnumerated ⟨⟨"Data", 16383, 1048574⟩, ⟨"Data", 16384, 1048576⟩⟩ ∧
    firstCells ⟨⟨"Data", 16383, 1048574⟩, ⟨"Data", 16384, 1048576⟩⟩ 100 =
      [⟨"Data", 16383, 1048574⟩, ⟨"Data", 16384, 1048574⟩, ⟨"Data", 16383, 1048575⟩,
        ⟨"Data", 16384, 1048575⟩, ⟨"Data", 16383, 1048576⟩, ⟨"Data", 16384, 1048576⟩] := by
  have h : Ordered ⟨⟨"Data", 16383, 1048574⟩, ⟨"Data", 16384, 1048576⟩⟩ :=
    ⟨by decide, by decide⟩
  exact ⟨h, isEnumerated_of_ordered h, by decide⟩

end Recalc.CellRange
