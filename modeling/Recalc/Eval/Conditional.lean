/-
Recalc/Eval/Conditional.lean

Aggregates over the cells that satisfy criteria.  Each criterion is tested on its own
range; all ranges have the shape of the target, and the cells at one offset belong
together.  The first range leads: its cells are walked, and the others are looked up at
the same offset.
-/
import Recalc.Eval.Argument
import Recalc.Eval.Criterion

namespace Recalc.Conditional

/-- A range whose cells must satisfy a criterion. -/
structure Condition where
  range : CellRange
  criterion : Criterion

/-- The ranges have the same number of rows and of columns. -/
def sameShape (r s : CellRange) : Bool := r.rows == s.rows && r.columns == s.columns

/-- The condition holds at an offset. -/
def holdsAt (ctx : EvalContext) (rows columns : Nat) (c : Condition) : Bool :=
  c.criterion.accepts ctx.options.tolerance
    (ctx.source.value (CellRange.shift c.range.first rows columns))

/-- The target's value for a cell of the leading range, if all conditions hold there. -/
def matchAt (ctx : EvalContext) (lead : Condition) (others : List Condition) (target : CellRange)
    (cell : Coordinate × Value) : Option Value :=
  if lead.criterion.accepts ctx.options.tolerance cell.2 then
    match lead.range.offset? cell.1 with
    | some (rows, columns) =>
      if others.all (holdsAt ctx rows columns) then
        some (ctx.source.value (CellRange.shift target.first rows columns))
      else none
    | none => none
  else none

/-- The values of the target at the offsets where all conditions hold. -/
def matched (ctx : EvalContext) (conditions : List Condition) (target : CellRange) :
    Except Fault (List Value) :=
  match conditions with
  | [] => .error .value
  | lead :: others =>
    if conditions.all fun c => sameShape c.range target then
      .ok ((ctx.cells lead.range).filterMap (matchAt ctx lead others target))
    else .error .value

/-- The range of a given shape from a given cell on, cut at the limits of the sheet. -/
def resized (origin : Coordinate) (like : CellRange) : CellRange :=
  ⟨origin, ⟨origin.sheet, min (origin.column + like.columns - 1) maxColumn,
    min (origin.row + like.rows - 1) maxRow⟩⟩

/-- The conditions and the target of a range, a criterion and perhaps another range. -/
def single (ctx : EvalContext) (args : List Operand) :
    Except Fault (List Condition × CellRange) := do
  let range ← EvalContext.rangeArg args 0
  let criterion := Criterion.ofValue (← ctx.valueArg args 1)
  let target ←
    match args[2]? with
    | some arg => do
      let other ← EvalContext.rangeOf arg
      pure (resized other.first range)
    | none => pure range
  return ([⟨range, criterion⟩], target)

/-- Conditions from pairs of a range and a criterion. -/
def pairs (ctx : EvalContext) : List Operand → Except Fault (List Condition)
  | range :: criterion :: rest => do
    let r ← EvalContext.rangeOf range
    let v ← ctx.valueArg [range, criterion] 1
    return ⟨r, Criterion.ofValue v⟩ :: (← pairs ctx rest)
  | _ => .ok []

/-- The sum of the numbers among values from `acc` on, and how many there are beyond `n`. -/
def tally (acc : Float) (n : Nat) : List Value → Except Fault (Float × Nat)
  | [] => .ok (acc, n)
  | .number x :: rest => tally (acc + x) (n + 1) rest
  | .date x :: rest => tally (acc + x) (n + 1) rest
  | .error f :: _ => .error f
  | _ :: rest => tally acc n rest

/-- Sum over one criterion. -/
def sumIf (ctx : EvalContext) (args : List Operand) : Except Fault Value := do
  let (conditions, target) ← single ctx args
  let (sum, _) ← tally 0.0 0 (← matched ctx conditions target)
  return .number sum

/-- Sum over several criteria; the target comes first. -/
def sumIfs (ctx : EvalContext) (args : List Operand) : Except Fault Value := do
  if args.length % 2 = 0 then .error .value
  else
    let target ← EvalContext.rangeArg args 0
    let conditions ← pairs ctx args.tail
    let (sum, _) ← tally 0.0 0 (← matched ctx conditions target)
    return .number sum

/-- Number of cells that satisfy a criterion. -/
def countIf (ctx : EvalContext) (args : List Operand) : Except Fault Value := do
  let (conditions, target) ← single ctx args
  return .number (Binary64.ofNat (← matched ctx conditions target).length)

/-- Mean over one criterion. -/
def averageIf (ctx : EvalContext) (args : List Operand) : Except Fault Value := do
  let (conditions, target) ← single ctx args
  let (sum, count) ← tally 0.0 0 (← matched ctx conditions target)
  if count = 0 then .error .divideByZero else return .number (sum / Binary64.ofNat count)

end Recalc.Conditional
