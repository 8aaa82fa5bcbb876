/-
Recalc/Eval/Comparison.lean

Equality and order of values.  Numbers and dates share one scale, on which values no
further apart than the tolerance are equal; texts are compared in lower case; a blank
counts as the zero of the other side's kind.  Values of different kinds have no order.
-/
import Recalc.Cell.Value

namespace Recalc

/-- Two numbers no further apart than the tolerance. -/
def near (tolerance x y : Float) : Bool := (x - y).abs ≤ tolerance

/-- The order of two numbers, those near each other being equal. -/
def compareNumbers (tolerance x y : Float) : Option Ordering :=
  if near tolerance x y then some .eq
  else if x < y then some .lt
  else if x > y then some .gt
  else if x == y then some .eq
  else none

namespace Value

/-- Whether two values count as equal. -/
def equal (tolerance : Float) : Value → Value → Bool
  | .empty, .empty => true
  | .empty, v => equalsBlank v
  | v, .empty => equalsBlank v
  | .number x, .number y => near tolerance x y
  | .number x, .date y => near tolerance x y
  | .date x, .number y => near tolerance x y
  | .date x, .date y => near tolerance x y
  | .text s, .text t => Text.lower s == Text.lower t
  | .boolean a, .boolean b => a == b
  | .error f, .error g => f == g
  | _, _ => false
where
  /-- Whether a value counts as equal to a blank. -/
  equalsBlank : Value → Bool
    | .number x => x == 0.0
    | .date x => x == 0.0
    | .text s => s == ""
    | .boolean b => !b
    | .error _ => false
    | .empty => true

/-- A blank as the zero of the other side's kind; any other value as it is. -/
def blankLike : Value → Value → Value
  | .empty, .number _ => .number 0.0
  | .empty, .date _ => .number 0.0
  | .empty, .text _ => .text ""
  | .empty, .boolean _ => .boolean false
  | v, _ => v

/-- The order of two values of one kind, a blank taken as it stands. -/
def compareLike (tolerance : Float) : Value → Value → Option Ordering
  | .empty, .empty => some .eq
  | .number x, .number y => compareNumbers tolerance x y
  | .number x, .date y => compareNumbers tolerance x y
  | .date x, .number y => compareNumbers tolerance x y
  | .date x, .date y => compareNumbers tolerance x y
  | .text s, .text t => some (compare (Text.lower s) (Text.lower t))
  | .boolean a, .boolean b => some (compare a b)
  | _, _ => none

/-- The order of two values, if they have one. -/
def compare? (tolerance : Float) (v w : Value) : Option Ordering :=
  compareLike tolerance (v.blankLike w) (w.blankLike v)

end Value

end Recalc
