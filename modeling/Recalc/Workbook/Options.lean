/-
Recalc/Workbook/Options.lean

How a workbook is compiled.
-/
import Recalc.Eval.Operand
import Recalc.Graph.Basic
import Recalc.Text.Quoted

namespace Recalc

/-- How a workbook is compiled. -/
structure CompilerOptions where
  /-- Work on several cells at a time; no result depends on it. -/
  parallel : Bool
  lazyRangeThreshold : Nat
  /-- Leave to settle cycles, for workbooks that say nothing themselves. -/
  defaultIteration : Option Iteration
  /-- How far beyond a bound tests go. -/
  boundaryStep : Float
  tolerance : Float
  epoch : Epoch

/-- Why options were refused. -/
inductive OptionsError
  | boundaryStep (x : Float)
  | tolerance
  | threshold
  | extension (found path : String)

/-- The wording of a refusal. -/
def OptionsError.message : OptionsError → String
  | .boundaryStep x => "Configuration error: boundaryStep must be positive, got " ++ plainText x
  | .tolerance => "Configuration error: numericTolerance must not be negative"
  | .threshold => "Configuration error: convergenceThreshold must not be negative"
  | .extension found path =>
    "Configuration error: unsupported config extension " ++ Text.quoted found ++ " for " ++ path

namespace CompilerOptions

/-- The options if nothing else is said. -/
def standard : CompilerOptions where
  parallel := true
  lazyRangeThreshold := EvalOptions.standard.lazyRangeThreshold
  defaultIteration := none
  boundaryStep := 1.0
  tolerance := EvalOptions.standard.tolerance
  epoch := EvalOptions.standard.epoch

/-- The options of evaluation among them. -/
def evalOptions (o : CompilerOptions) : EvalOptions := ⟨o.lazyRangeThreshold, o.tolerance, o.epoch⟩

/-- Refuse options out of bounds. -/
def validated (o : CompilerOptions) : Except OptionsError CompilerOptions :=
  if !(o.boundaryStep.isFinite && 0.0 < o.boundaryStep) then .error (.boundaryStep o.boundaryStep)
  else if o.tolerance < 0.0 then .error .tolerance
  else if o.defaultIteration.any fun i => i.threshold < 0.0 then .error .threshold
  else .ok o

end CompilerOptions

end Recalc
