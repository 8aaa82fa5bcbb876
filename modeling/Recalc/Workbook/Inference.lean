/-
Recalc/Workbook/Inference.lean

The type of a cell, from samples of its values.  Samples of several kinds make the type
mixed, which somebody should review.
-/
import Recalc.Cell.Value

namespace Recalc

/-- The kinds of values seen, in the order they were first seen. -/
structure Inference where
  observed : List ValueType
deriving DecidableEq, Repr

namespace Inference

/-- The kinds among samples. -/
def ofSamples (samples : List Value) : Inference :=
  ⟨samples.foldl (fun seen v => if seen.contains v.type then seen else seen ++ [v.type]) []⟩

/-- Samples disagree. -/
def needsReview (i : Inference) : Bool := 1 < i.observed.length

/-- The name of a kind as a type. -/
def typeName : ValueType → String
  | .number => "number"
  | .text => "text"
  | .boolean => "boolean"
  | .date => "date"
  | .error => "error"
  | .empty => "empty"

/-- The name of the inferred type; without samples it is the type of blanks. -/
def inferredType (i : Inference) : String :=
  match i.observed with
  | [] => typeName .empty
  | [t] => typeName t
  | _ => "mixed"

end Inference

end Recalc
