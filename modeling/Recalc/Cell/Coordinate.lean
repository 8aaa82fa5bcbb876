/-
Recalc/Cell/Coordinate.lean

Cells of a workbook.  A coordinate is a sheet with a column and a row; coordinates are
ordered by sheet, then by row, then by column, so that the cells of a sheet come row by
row.  The text of a coordinate is its sheet as references write it, `!`, and the
address.
-/
import Recalc.Cell.SheetName
import Std.Data.TreeMap

namespace Recalc

/-- A cell of a workbook; column and row are counted from 1. -/
structure Coordinate where
  sheet : String
  column : Nat
  row : Nat
deriving DecidableEq, Repr

namespace Coordinate

/-- By sheet, then row, then column. -/
def order : Coordinate → Coordinate → Ordering :=
  compareLex (compareOn Coordinate.sheet)
    (compareLex (compareOn Coordinate.row) (compareOn Coordinate.column))

instance : Ord Coordinate := ⟨order⟩

instance : Std.TransOrd Coordinate :=
  inferInstanceAs (Std.TransCmp (compareLex (compareOn Coordinate.sheet)
    (compareLex (compareOn Coordinate.row) (compareOn Coordinate.column))))

instance : Std.LawfulEqOrd Coordinate where
  eq_of_compare {a b} h := by
    have h' : order a b = .eq := h
    simp only [order, compareLex, compareOn, Ordering.then_eq_eq, Std.LawfulEqOrd.compare_eq_iff_eq]
      at h'
    obtain ⟨hs, hr, hc⟩ := h'
    cases a; cases b; simp_all

/-- No later than, as a test for sorting. -/
def le (a b : Coordinate) : Bool := (compare a b).isLE

/-- The address without the sheet. -/
def address (c : Coordinate) : Address := ⟨c.column, c.row⟩

/-- The cell of a sheet at an address. -/
def ofAddress (sheet : String) (a : Address) : Coordinate := ⟨sheet, a.column, a.row⟩

/-- The address text without the sheet. -/
def addressText (c : Coordinate) : String := c.address.text

/-- The text with the sheet in front. -/
def text (c : Coordinate) : String :=
  SheetName.written c.sheet ++ "!" ++ c.addressText

/-- Read a coordinate with its sheet, such as `Sheet1!B5` or `'My Sheet'!$B$5`. -/
def parse (s : String) : Except AddressError Coordinate :=
  match SheetName.splitQualifier s with
  | (some sheet, rest) => (Address.parse rest).map (ofAddress sheet)
  | (none, _) => .error (.missingSheet s)

/-- Coordinates in order. -/
def sort (cs : List Coordinate) : List Coordinate := cs.mergeSort le

end Coordinate

end Recalc
