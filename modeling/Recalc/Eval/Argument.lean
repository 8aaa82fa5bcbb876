/-
Recalc/Eval/Argument.lean

Arguments as the kinds of values that functions want.  A missing argument is blank, and
an argument that is a fault fails with it.
-/
import Recalc.Eval.Coercion
import Recalc.Eval.Operand

namespace Recalc.EvalContext

/-- The value of an argument. -/
def valueArg (ctx : EvalContext) (args : List Operand) (i : Nat) : Except Fault Value :=
  match (args[i]?.map ctx.scalar).getD .empty with
  | .error f => .error f
  | v => .ok v

/-- An argument as a number. -/
def numberArg (ctx : EvalContext) (args : List Operand) (i : Nat) : Except Fault Float := do
  (← ctx.valueArg args i).toNumber

/-- An argument as a number, with a default for one that is missing. -/
def numberArgD (ctx : EvalContext) (args : List Operand) (i : Nat) (default : Float) :
    Except Fault Float :=
  if i < args.length then ctx.numberArg args i else .ok default

/-- An argument as a text. -/
def textArg (ctx : EvalContext) (args : List Operand) (i : Nat) : Except Fault String := do
  (← ctx.valueArg args i).toText

/-- An argument as a truth value. -/
def boolArg (ctx : EvalContext) (args : List Operand) (i : Nat) : Except Fault Bool := do
  (← ctx.valueArg args i).toBool

/-- An argument as a position, counted from 1. -/
def positionArg (ctx : EvalContext) (args : List Operand) (i : Nat) : Except Fault Nat := do
  let n := Binary64.trunc (← ctx.numberArg args i)
  if n < 1.0 then .error .value else .ok (Binary64.clampNat n)

/-- An argument as a count, with a default for one that is missing. -/
def countArg (ctx : EvalContext) (args : List Operand) (i : Nat) (default : Float) :
    Except Fault Nat := do
  let n := Binary64.trunc (← ctx.numberArgD args i default)
  if n < 0.0 then .error .value else .ok (Binary64.clampNat n)

/-- An operand as a range; a cell is a range of one. -/
def rangeOf : Operand → Except Fault CellRange
  | .range r => .ok r
  | .cell c => .ok ⟨c, c⟩
  | .value (.error f) => .error f
  | .value _ => .error .value
  | .array _ => .error .value

/-- An argument as a range. -/
def rangeArg (args : List Operand) (i : Nat) : Except Fault CellRange :=
  match args[i]? with
  | some arg => rangeOf arg
  | none => .error .value

end Recalc.EvalContext
