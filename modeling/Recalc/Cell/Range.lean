/-
Recalc/Cell/Range.lean

Rectangles of cells.  A range has a top-left and a bottom-right corner on one sheet; its
cells are counted row by row, so the `k`-th cell of a range with `w` columns lies `k / w`
rows below and `k % w` columns right of the first:

    cells r = (List.range r.size).map r.cellAt.

A walk meets the same cells one after the other and stops behind the last one.  Whole
columns and whole rows are ranges like any other.  Nothing here walks a range unless its
cells are asked for.

A map by coordinate has its entries in one row, sheet by sheet and line by line.  Those of
a range are looked for between its corners, where entries beside the range stand as well.
-/
import Recalc.Cell.Coordinate

namespace Recalc

/-- A rectangle of cells, by its first and its last one. -/
structure CellRange where
  first : Coordinate
  last : Coordinate
deriving DecidableEq, Repr

namespace CellRange

/-- The range between two corners, in whatever order they are given. -/
def ofCorners (a b : Coordinate) : Except AddressError CellRange :=
  if a.sheet = b.sheet then
    .ok ⟨⟨a.sheet, min a.column b.column, min a.row b.row⟩,
      ⟨a.sheet, max a.column b.column, max a.row b.row⟩⟩
  else .error (.sheetMismatch a.sheet b.sheet)

/-- Every row of some columns. -/
def wholeColumns (sheet : String) (one other : Nat) : CellRange :=
  ⟨⟨sheet, min one other, 1⟩, ⟨sheet, max one other, maxRow⟩⟩

/-- Every column of some rows. -/
def wholeRows (sheet : String) (one other : Nat) : CellRange :=
  ⟨⟨sheet, 1, min one other⟩, ⟨sheet, maxColumn, max one other⟩⟩

/-- The sheet of the range. -/
def sheet (r : CellRange) : String := r.first.sheet

/-- Corners in order, on one sheet and within its limits. -/
structure WellFormed (r : CellRange) : Prop where
  sheet : r.last.sheet = r.first.sheet
  column : 1 ≤ r.first.column ∧ r.first.column ≤ r.last.column ∧ r.last.column ≤ maxColumn
  row : 1 ≤ r.first.row ∧ r.first.row ≤ r.last.row ∧ r.last.row ≤ maxRow

/-- The number of rows. -/
def rows (r : CellRange) : Nat := r.last.row - r.first.row + 1

/-- The number of columns. -/
def columns (r : CellRange) : Nat := r.last.column - r.first.column + 1

/-- The number of cells. -/
def size (r : CellRange) : Nat := r.rows * r.columns

/-- All rows of the sheet. -/
def isWholeColumns (r : CellRange) : Bool := r.first.row == 1 && r.last.row == maxRow

/-- All columns of the sheet. -/
def isWholeRows (r : CellRange) : Bool := r.first.column == 1 && r.last.column == maxColumn

/-- The cell lies in the range. -/
def contains (r : CellRange) (c : Coordinate) : Bool :=
  c.sheet == r.first.sheet && r.first.row ≤ c.row && c.row ≤ r.last.row &&
    r.first.column ≤ c.column && c.column ≤ r.last.column

/-- The cell `rows` below and `columns` right of the given one. -/
def shift (origin : Coordinate) (rows columns : Nat) : Coordinate :=
  ⟨origin.sheet, origin.column + columns, origin.row + rows⟩

/-- The `k`-th cell, row by row. -/
def cellAt (r : CellRange) (k : Nat) : Coordinate :=
  shift r.first (k / r.columns) (k % r.columns)

/-- Where a walk over a range stands: at the next cell, unless all are passed. -/
structure Walk where
  column : Nat
  row : Nat
  isOver : Bool
deriving DecidableEq, Repr

namespace Walk

/-- A walk stands at the first cell before it starts. -/
def start (r : CellRange) : Walk := ⟨r.first.column, r.first.row, false⟩

/-- The next cell, and where the walk stands behind it: one column on, or at the start of the
next row, or at its end. -/
def next? (r : CellRange) (w : Walk) : Option (Coordinate × Walk) :=
  if w.isOver then none
  else some (⟨r.sheet, w.column, w.row⟩,
    if w.row = r.last.row ∧ w.column = r.last.column then { w with isOver := true }
    else if w.column < r.last.column then { w with column := w.column + 1 }
    else { w with column := r.first.column, row := w.row + 1 })

/-- The cells of the next steps, no more than `limit` of them. -/
def cells (r : CellRange) : Nat → Walk → List Coordinate
  | 0, _ => []
  | limit + 1, w => match w.next? r with
    | some (c, rest) => c :: cells r limit rest
    | none => []

end Walk

/-- The cells that a walk meets first, no more than `limit` of them. -/
def firstCells (r : CellRange) (limit : Nat) : List Coordinate :=
  (Walk.start r).cells r limit

/-- All cells, row by row. -/
def cells (r : CellRange) : List Coordinate :=
  (List.range r.size).map r.cellAt

/-- All cells, unless there are more than `limit`. -/
def expand (r : CellRange) (limit : Nat) : Except AddressError (List Coordinate) :=
  if r.size ≤ limit then .ok r.cells else .error (.rangeTooLarge r.size limit)

/-- How many rows below and columns right of the first cell a cell of the range lies. -/
def offset? (r : CellRange) (c : Coordinate) : Option (Nat × Nat) :=
  if r.contains c then some (c.row - r.first.row, c.column - r.first.column) else none

/-- The entries of a map from one cell to another one, in order. -/
def between {α : Type} (m : Std.TreeMap Coordinate α) (first last : Coordinate) :
    List (Coordinate × α) :=
  (m.toList.dropWhile fun (c, _) => (compare c first).isLT).takeWhile
    fun (c, _) => (compare c last).isLE

/-- The entries of a map that lie in the range, in order. -/
def entries {α : Type} (r : CellRange) (m : Std.TreeMap Coordinate α) : List (Coordinate × α) :=
  (between m r.first { r.last with sheet := r.sheet }).filter fun (c, _) => r.contains c

/-- The text without the sheet: `A:C`, `2:5` or `B2:D9`. -/
def addressText (r : CellRange) : String :=
  if r.isWholeColumns then
    Column.letters r.first.column ++ ":" ++ Column.letters r.last.column
  else if r.isWholeRows then toString r.first.row ++ ":" ++ toString r.last.row
  else r.first.addressText ++ ":" ++ r.last.addressText

/-- The text with the sheet in front. -/
def text (r : CellRange) : String :=
  SheetName.written r.sheet ++ "!" ++ r.addressText

end CellRange

/-- What a reference points at. -/
inductive Target
  | cell (c : Coordinate)
  | range (r : CellRange)
deriving DecidableEq, Repr

namespace Target

/-- The sheet pointed at. -/
def sheet : Target → String
  | .cell c => c.sheet
  | .range r => r.sheet

/-- The cell is among those pointed at. -/
def contains : Target → Coordinate → Bool
  | .cell c, d => c == d
  | .range r, d => r.contains d

/-- The cell pointed at, if the target is a single one. -/
def cell? : Target → Option Coordinate
  | .cell c => some c
  | .range _ => none

/-- The text without the sheet. -/
def addressText : Target → String
  | .cell c => c.addressText
  | .range r => r.addressText

/-- The text with the sheet in front. -/
def text : Target → String
  | .cell c => c.text
  | .range r => r.text

end Target

end Recalc
