/-
Recalc/Workbook/Synthesis.lean

Test cases for a cluster.  The first case holds the stored inputs.  Every other case
changes one of them: to 0, to a bound, one step beyond a bound, or to a declared choice.
Cases whose inputs agree within the tolerance are made once.
-/
import Recalc.Eval.Comparison
import Recalc.Workbook.ClusterRun
import Recalc.Workbook.Inference
import Recalc.Workbook.Options
import Recalc.Workbook.Snapshot

namespace Recalc

/-- Where the inputs of a test come from. -/
inductive TestOrigin
  | observed
  | boundary
  | synthetic
deriving DecidableEq, Repr

/-- The name of an origin. -/
def TestOrigin.tag : TestOrigin → String
  | .observed => "observed"
  | .boundary => "boundary"
  | .synthetic => "synthetic"

/-- Inputs of a cluster and the outputs that they give. -/
structure TestCase where
  id : String
  inputs : CellMap
  expectedOutputs : CellMap
  origin : TestOrigin

/-- Inputs before they are run. -/
structure TestInputs where
  origin : TestOrigin
  inputs : CellMap

/-- What a workbook gives the runs of all clusters. -/
structure RunContext where
  engine : Engine
  graph : Graph
  constants : CellMap
  /-- The classified cells. -/
  cells : Std.TreeMap Coordinate ClassifiedCell
  options : CompilerOptions

/-- The tests of a cluster and the runs behind them. -/
structure Synthesis where
  tests : List TestCase
  observed : ClusterRun
  /-- The values of each formula cell, test by test. -/
  samples : List (Nat × List Value)

namespace Synthesis

/-- Values that are the same input: numbers within the tolerance, all else exactly. -/
def sameInput (tolerance : Float) : Value → Value → Bool
  | .number x, .number y => near tolerance x y
  | .date x, .date y => near tolerance x y
  | v, w => v.same w

/-- Inputs that agree cell by cell. -/
def sameInputs (tolerance : Float) (a b : CellMap) : Bool :=
  a.size == b.size && (a.toList.zip b.toList).all fun ((c, v), (d, w)) =>
    c == d && sameInput tolerance v w

/-- The values to try for an input. -/
def candidates (step : Float) (cell : ClassifiedCell) (current : Value) :
    List (TestOrigin × Value) :=
  let number (x : Float) : TestOrigin × Value :=
    (.boundary, if cell.isDate || current.isDate then .date x else .number x)
  let numbers :=
    if cell.isNumericInput then
      let least := (cell.validation.bind Validation.min).toList
      let most := (cell.validation.bind Validation.max).toList
      number 0.0 :: (least.flatMap fun x => [number x, number (x - step)]) ++
        (most.flatMap fun x => [number x, number (x + step)])
    else []
  let choices := (cell.validation.map Validation.options).getD []
  numbers ++ choices.map fun v => (.synthetic, v.toValue cell.isDate)

/-- One more set of inputs, unless one like it is there. -/
def addInputs (tolerance : Float) (all : List TestInputs) (t : TestInputs) : List TestInputs :=
  if all.any fun seen => sameInputs tolerance seen.inputs t.inputs then all else all ++ [t]

/-- The stored inputs of a cluster. -/
def observedInputs (ctx : RunContext) (c : Cluster) : CellMap :=
  CellMap.ofList ((ctx.graph.nodesOf c.inputs).map fun n =>
    (n.coordinate, ctx.constants.value n.coordinate))

/-- The changed inputs to try, before any is dropped. -/
def perturbed (ctx : RunContext) (observed : CellMap) : List TestInputs :=
  observed.toList.flatMap fun (c, current) =>
    match ctx.cells[c]? with
    | some cell =>
      if cell.role = .input then
        (candidates ctx.options.boundaryStep cell current).map fun (origin, v) =>
          ⟨origin, observed.insert c v⟩
      else []
    | none => []

/-- The inputs of all tests of a cluster. -/
def allInputs (ctx : RunContext) (c : Cluster) : List TestInputs :=
  let observed := observedInputs ctx c
  (perturbed ctx observed).foldl (addInputs ctx.options.tolerance) [⟨.observed, observed⟩]

/-- A set of inputs with its run. -/
structure Trial where
  inputs : TestInputs
  run : ClusterRun

/-- The value of a cell in a run: computed, given or constant. -/
def Trial.value (ctx : RunContext) (t : Trial) (c : Coordinate) : Value :=
  ((t.run.computed[c]?.or t.inputs.inputs[c]?).or ctx.constants[c]?).getD .empty

/-- The tests of trials, numbered within each origin; `before` are the origins so far. -/
def testCases (ctx : RunContext) (c : Cluster) (before : List TestOrigin) :
    List Trial → List TestCase
  | [] => []
  | t :: rest =>
    let origin := t.inputs.origin
    let number := before.count origin
    let outputs := (ctx.graph.nodesOf c.outputs).map fun n =>
      (n.coordinate, t.value ctx n.coordinate)
    { id := s!"cluster{c.id}_{origin.tag}_{number}",
      inputs := t.inputs.inputs,
      expectedOutputs := CellMap.ofList outputs,
      origin } :: testCases ctx c (origin :: before) rest

/-- The tests of a cluster. -/
def ofCluster (ctx : RunContext) (c : Cluster) : Synthesis :=
  let trials := (allInputs ctx c).map fun t =>
    (⟨t, c.run ctx.engine ctx.graph ctx.constants t.inputs⟩ : Trial)
  let formulas := ctx.graph.nodes.toList.filter fun n => n.cluster == c.id && n.hasLogic
  { tests := testCases ctx c [] trials,
    observed := (trials.head?.map Trial.run).getD ⟨∅, []⟩,
    samples := formulas.map fun n => (n.id, trials.map fun t => t.value ctx n.coordinate) }

end Synthesis

end Recalc
