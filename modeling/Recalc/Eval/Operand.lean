/-
Recalc/Eval/Operand.lean

Arguments of functions.  References stay references until a function asks for their
cells.  A range no larger than the threshold is read cell by cell, blanks included; of a
larger one only the cells that the source has are read.
-/
import Recalc.Eval.Calendar
import Recalc.Eval.Source

namespace Recalc

/-- How formulas are computed. -/
structure EvalOptions where
  /-- Ranges with more cells than this are read through the cells there are. -/
  lazyRangeThreshold : Nat
  /-- Numbers no further apart than this are equal. -/
  tolerance : Float
  epoch : Epoch

namespace EvalOptions

/-- The options of a workbook that says nothing else. -/
def standard : EvalOptions := ⟨4096, 1e-9, .from1900⟩

end EvalOptions

/-- An evaluated argument. -/
inductive Operand
  | value (v : Value)
  | cell (c : Coordinate)
  | range (r : CellRange)
  | array (rows : List (List Value))

namespace Operand

/-- A fault as an operand. -/
def fault (f : Fault) : Operand := .value (.error f)

/-- The operand that a reference is. -/
def ofTarget : Target → Operand
  | .cell c => .cell c
  | .range r => .range r

/-- The fault, if the operand is one. -/
def fault? : Operand → Option Fault
  | .value v => v.fault?
  | _ => none

end Operand

/-- What a function sees besides its arguments. -/
structure EvalContext where
  source : CellSource
  options : EvalOptions

namespace EvalContext

/-- The range is read through the cells there are. -/
def isLazy (ctx : EvalContext) (r : CellRange) : Bool :=
  ctx.options.lazyRangeThreshold < r.size

/-- The cells of a range with their values, row by row. -/
def cells (ctx : EvalContext) (r : CellRange) : List (Coordinate × Value) :=
  if ctx.isLazy r then ctx.source.boundIn r
  else r.cells.map fun c => (c, ctx.source.value c)

/-- The one value of an operand; several cells or elements are a value fault. -/
def scalar (ctx : EvalContext) : Operand → Value
  | .value v => v
  | .cell c => ctx.source.value c
  | .range r => if r.size = 1 then ctx.source.value r.first else .error .value
  | .array [[v]] => v
  | .array _ => .error .value

/-- All values of an operand, row by row. -/
def values (ctx : EvalContext) : Operand → List Value
  | .value v => [v]
  | .cell c => [ctx.source.value c]
  | .range r => (ctx.cells r).map Prod.snd
  | .array rows => rows.flatten

/-- The value at the top left of an operand. -/
def topLeft (ctx : EvalContext) : Operand → Value
  | .value v => v
  | .cell c => ctx.source.value c
  | .range r => ctx.source.value r.first
  | .array ((v :: _) :: _) => v
  | .array _ => .error .value

end EvalContext

end Recalc
