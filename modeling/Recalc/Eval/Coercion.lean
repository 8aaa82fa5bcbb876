/-
Recalc/Eval/Coercion.lean

Values where a number, a text or a truth value is wanted.  A fault passes through as it
is; a value that has no reading of the wanted kind is a value fault.
-/
import Recalc.Cell.Value
import Recalc.Text.Blank

namespace Recalc.Value

/-- The number of a text, which must be finite. -/
def textNumber? (s : String) : Option Float :=
  (readFloat? (Text.trim s)).filter Float.isFinite

/-- As a number: blanks are 0, truth values 0 or 1, and texts are read. -/
def toNumber : Value → Except Fault Float
  | .number x => .ok x
  | .date x => .ok x
  | .boolean b => .ok (if b then 1.0 else 0.0)
  | .empty => .ok 0.0
  | .text s => match textNumber? s with
    | some x => .ok x
    | none => .error .value
  | .error f => .error f

/-- As a text: what the cell shows. -/
def toText : Value → Except Fault String
  | .error f => .error f
  | v => .ok v.display

/-- As a truth value: a number is true unless 0, a blank is false, and the texts TRUE and FALSE
are read whatever their case. -/
def toBool : Value → Except Fault Bool
  | .boolean b => .ok b
  | .number x => .ok (x != 0.0)
  | .date x => .ok (x != 0.0)
  | .empty => .ok false
  | .text s =>
    if Text.sameIgnoringCase s "TRUE" then .ok true
    else if Text.sameIgnoringCase s "FALSE" then .ok false
    else .error .value
  | .error f => .error f

/-- A result that may be a fault, as a value. -/
def ofExcept : Except Fault Value → Value
  | .ok v => v
  | .error f => .error f

/-- A computed number; one that is not finite is a number fault. -/
def finite (x : Float) : Except Fault Value :=
  if x.isFinite then .ok (.number x) else .error .num

end Recalc.Value
