/-
Recalc/Eval/Binding.lean

Two layers of cells: values of a run over the constants of the workbook.  Where both have
a cell, the value of the run counts.
-/
import Recalc.Eval.Source

namespace Recalc

/-- Local values over constants. -/
structure Binding where
  constants : CellMap
  own : CellMap

namespace Binding

/-- The value of a cell. -/
def value (b : Binding) (c : Coordinate) : Value := (b.own[c]?.or b.constants[c]?).getD .empty

/-- With a local value for a cell. -/
def set (b : Binding) (c : Coordinate) (v : Value) : Binding := { b with own := b.own.insert c v }

/-- With one local value for several cells. -/
def fill (b : Binding) (cs : List Coordinate) (v : Value) : Binding :=
  cs.foldl (fun b c => b.set c v) b

/-- The cells of a range that either layer has, in order. -/
def boundIn (b : Binding) (r : CellRange) : List (Coordinate × Value) :=
  (CellMap.ofList (b.constants.boundIn r ++ b.own.boundIn r)).toList

/-- A binding as a source. -/
def source (b : Binding) : CellSource := ⟨b.value, b.boundIn⟩

end Binding

end Recalc
