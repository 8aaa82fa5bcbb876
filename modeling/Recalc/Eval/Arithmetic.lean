/-
Recalc/Eval/Arithmetic.lean

Functions on numbers.  A result that is not finite is a number fault.
-/
import Recalc.Eval.Argument
import Recalc.Eval.Operation

namespace Recalc.Arithmetic

/-- Absolute value. -/
def abs (ctx : EvalContext) (args : List Operand) : Except Fault Value := do
  Value.finite (← ctx.numberArg args 0).abs

/-- Four units in the last place of 1; a number that far below a half still rounds up. -/
def slack (x : Float) : Float := x * 2.220446049250313e-16 * 4.0

/-- To the nearest integer, a half away from zero, with some slack for binary fractions. -/
def roundNearest (x : Float) : Float := Binary64.round .nearest (x + slack x)

/-- Away from zero. -/
def roundAway (x : Float) : Float := Binary64.copySign (Binary64.round .up x.abs) x

/-- A rounding at the given number of places behind the point, or in front of it if negative. -/
def roundAt (mode : Float → Float) (x : Float) (places : Int) : Float :=
  let factor := Binary64.powerOfTen places.natAbs
  if 0 ≤ places then mode (x * factor) / factor else mode (x / factor) * factor

/-- Round to some places, none by default and 15 at most. -/
def round (mode : Float → Float) (ctx : EvalContext) (args : List Operand) :
    Except Fault Value := do
  let x ← ctx.numberArg args 0
  let places ← ctx.numberArgD args 1 0.0
  Value.finite (roundAt mode x (Binary64.clampInt (-15) 15 places))

/-- The greatest integer not above. -/
def int (ctx : EvalContext) (args : List Operand) : Except Fault Value := do
  Value.finite (Binary64.floor (← ctx.numberArg args 0))

/-- The remainder, with the sign of the divisor. -/
def mod (ctx : EvalContext) (args : List Operand) : Except Fault Value := do
  let n ← ctx.numberArg args 0
  let d ← ctx.numberArg args 1
  if d == 0.0 then .error .divideByZero else Value.finite (n - d * Binary64.floor (n / d))

/-- Power, as the operator computes it. -/
def power (ctx : EvalContext) (args : List Operand) : Except Fault Value := do
  let base ← ctx.valueArg args 0
  let exponent ← ctx.valueArg args 1
  match Value.power base exponent with
  | .error f => .error f
  | v => .ok v

/-- Square root. -/
def sqrt (ctx : EvalContext) (args : List Operand) : Except Fault Value := do
  let x ← ctx.numberArg args 0
  if x < 0.0 then .error .num else Value.finite x.sqrt

end Recalc.Arithmetic
