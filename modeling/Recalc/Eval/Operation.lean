/-
Recalc/Eval/Operation.lean

What the operators compute.  A fault on the left wins over one on the right, and both
over the operation.  A date moved by a number stays a date; the distance of two dates is
a number.  Comparisons of values that have no order are false.
-/
import Recalc.Eval.Coercion
import Recalc.Eval.Comparison
import Recalc.Formula.Operator

namespace Recalc.Value

/-- A computed number as a value. -/
def ofNumber (r : Except Fault Float) : Value := ofExcept (r.bind finite)

/-- Both sides as numbers, the left one first. -/
def numbers (v w : Value) : Except Fault (Float × Float) := do
  let x ← v.toNumber
  let y ← w.toNumber
  return (x, y)

/-- An operation on the numbers of both sides. -/
def arithmetic (op : Float → Float → Float) (v w : Value) : Value :=
  ofNumber ((numbers v w).map fun (x, y) => op x y)

/-- A number as a date, if it is to be one. -/
def dated : Bool → Value → Value
  | true, .number x => .date x
  | _, v => v

/-- Sum; a date and something else make a date. -/
def add (v w : Value) : Value :=
  dated (v.isDate != w.isDate) (arithmetic (· + ·) v w)

/-- Difference; a date less something else is a date. -/
def subtract (v w : Value) : Value :=
  dated (v.isDate && !w.isDate) (arithmetic (· - ·) v w)

/-- Product. -/
def multiply (v w : Value) : Value := arithmetic (· * ·) v w

/-- Quotient. -/
def divide (v w : Value) : Value :=
  ofNumber do
    let (x, y) ← numbers v w
    if y == 0.0 then .error .divideByZero else .ok (x / y)

/-- Power; a negative power of 0 divides by zero. -/
def power (v w : Value) : Value :=
  ofNumber do
    let (x, y) ← numbers v w
    if x == 0.0 && y < 0.0 then .error .divideByZero else .ok (Float.pow x y)

/-- The texts of both sides, one after the other. -/
def concat (v w : Value) : Value :=
  ofExcept do
    let s ← v.toText
    let t ← w.toText
    return .text (s ++ t)

/-- Whether both sides stand in one of the accepted orders. -/
def ordered (tolerance : Float) (accept : Ordering → Bool) (v w : Value) : Value :=
  .boolean ((v.compare? tolerance w).any accept)

/-- The result of an operator on two values. -/
def binary (tolerance : Float) (op : BinaryOp) (v w : Value) : Value :=
  match v.fault?.or w.fault? with
  | some f => .error f
  | none =>
    match op with
    | .add => add v w
    | .subtract => subtract v w
    | .multiply => multiply v w
    | .divide => divide v w
    | .power => power v w
    | .concat => concat v w
    | .equal => .boolean (v.equal tolerance w)
    | .notEqual => .boolean (!v.equal tolerance w)
    | .less => ordered tolerance Ordering.isLT v w
    | .lessEqual => ordered tolerance Ordering.isLE v w
    | .greater => ordered tolerance Ordering.isGT v w
    | .greaterEqual => ordered tolerance Ordering.isGE v w

/-- The result of an operator on one value. -/
def unary (op : UnaryOp) (v : Value) : Value :=
  match op with
  | .plus => v
  | .negate => ofNumber (v.toNumber.map (-·))
  | .percent => ofNumber (v.toNumber.map (· / 100.0))

end Recalc.Value
