/-
Recalc/Document/Options.lean

Options in documents, JSON or YAML.  What is not said keeps its standard.
-/
import Recalc.Document.Graph
import Recalc.Workbook.Options
import Recalc.Yaml.Reader

namespace Recalc

/-- Read limits of repetition. -/
def Iteration.ofYaml? (y : Yaml) : Option Iteration := do
  match ← y.record? ["maxIterations", "convergenceThreshold"] with
  | [most, threshold] =>
    return ⟨← Yaml.required? (Yaml.natBelow? Iteration.countLimit) most,
      ← Yaml.required? Yaml.float? threshold⟩
  | _ => none

/-- The formats of options. -/
inductive OptionsFormat
  | json
  | yaml

namespace CompilerOptions

/-- What stays below `2 ^ 64` is a size. -/
def sizeLimit : Nat := 0x10000000000000000

/-- The names of the options, in order. -/
def names : List String :=
  ["parallel", "lazyRangeThreshold", "defaultIterative", "boundaryStep", "numericTolerance",
    "dateEpoch"]

/-- Options in a document. -/
def toJson (o : CompilerOptions) : Json :=
  .object [
    ("parallel", .bool o.parallel),
    ("lazyRangeThreshold", .nat o.lazyRangeThreshold),
    ("defaultIterative", (o.defaultIteration.map Iteration.toJson).getD .null),
    ("boundaryStep", .float o.boundaryStep),
    ("numericTolerance", .float o.tolerance),
    ("dateEpoch", .string o.epoch.tag)]

section Json

open Json

/-- Read options, which may be out of bounds. -/
def ofJson? (j : Json) : Option CompilerOptions := do
  match ← j.record? names with
  | [parallel, threshold, iteration, step, tolerance, epoch] =>
    return {
      parallel := ← orElse? standard.parallel bool? parallel,
      lazyRangeThreshold := ← orElse? standard.lazyRangeThreshold (natBelow? sizeLimit) threshold,
      defaultIteration :=
        ← orElse? standard.defaultIteration (optional? Iteration.ofJson?) iteration,
      boundaryStep := ← orElse? standard.boundaryStep float? step,
      tolerance := ← orElse? standard.tolerance float? tolerance,
      epoch := ← orElse? standard.epoch (oneOf? Epoch.ofTag?) epoch }
  | _ => none

end Json

section Yaml

open Yaml

/-- Read options, which may be out of bounds. -/
def ofYaml? (y : Yaml) : Option CompilerOptions := do
  match ← y.record? names with
  | [parallel, threshold, iteration, step, tolerance, epoch] =>
    return {
      parallel := ← orElse? standard.parallel bool? parallel,
      lazyRangeThreshold := ← orElse? standard.lazyRangeThreshold (natBelow? sizeLimit) threshold,
      defaultIteration :=
        ← orElse? standard.defaultIteration (optional? Iteration.ofYaml?) iteration,
      boundaryStep := ← orElse? standard.boundaryStep float? step,
      tolerance := ← orElse? standard.tolerance float? tolerance,
      epoch := ← orElse? standard.epoch (oneOf? Epoch.ofTag?) epoch }
  | _ => none

end Yaml

/-- Read options from a text, which may be out of bounds. -/
def parse? (format : OptionsFormat) (text : String) : Option CompilerOptions :=
  match format with
  | .json => (Json.parse? text).bind ofJson?
  | .yaml => (Yaml.parse? text).bind ofYaml?

end CompilerOptions

end Recalc
