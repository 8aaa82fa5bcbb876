/-
Recalc/Eval/Source.lean

Where formulas read cells.  A source gives the value of every cell, blank if it has
none, and lists the cells it has in a range, row by row; large ranges are only ever read
through that list.
-/
import Recalc.Cell.Range
import Recalc.Cell.Value

namespace Recalc

/-- Cells by coordinate, in order. -/
abbrev CellMap := Std.TreeMap Coordinate Value

/-- Read access to cells. -/
structure CellSource where
  /-- The value of a cell, blank if there is none. -/
  value : Coordinate → Value
  /-- The cells there are in a range, in order. -/
  boundIn : CellRange → List (Coordinate × Value)

namespace CellMap

/-- The map of a list of cells; a later entry replaces an earlier one. -/
def ofList (cells : List (Coordinate × Value)) : CellMap :=
  cells.foldl (fun m (c, v) => m.insert c v) ∅

/-- The value of a cell. -/
def value (m : CellMap) (c : Coordinate) : Value := m[c]?.getD .empty

/-- The cells of a range that the map has. -/
def boundIn (m : CellMap) (r : CellRange) : List (Coordinate × Value) := r.entries m

/-- A map as a source. -/
def source (m : CellMap) : CellSource := ⟨m.value, m.boundIn⟩

end CellMap

end Recalc
