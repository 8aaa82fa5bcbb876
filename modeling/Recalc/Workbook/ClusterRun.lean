/-
Recalc/Workbook/ClusterRun.lean

Running the schedule of a cluster.  Each step reads the constants of the workbook and the
values computed so far, and binds what it computes.  A cell without a formula computes
nothing and keeps its constant.

A cycle whose members do not all agree to repetition is a circular fault.  Otherwise its
members start at 0 and are evaluated in turn, sweep after sweep, each reading what the
sweep has changed already.  The cycle has settled when the largest change of a sweep is
below the threshold; it fails when a member is no number, or when the sweeps run out.
-/
import Recalc.Eval.Binding
import Recalc.Eval.Engine
import Recalc.Graph.Basic

namespace Recalc

/-- How a cycle ended. -/
inductive CycleStatus
  | rejected
  | converged
  | didNotConverge
  | nonNumeric
deriving DecidableEq, Repr

/-- The name of a status. -/
def CycleStatus.tag : CycleStatus → String
  | .rejected => "rejected"
  | .converged => "converged"
  | .didNotConverge => "didNotConverge"
  | .nonNumeric => "nonNumeric"

/-- The end of a cycle and the sweeps it took. -/
structure CycleOutcome where
  cycle : Nat
  status : CycleStatus
  iterations : Nat
deriving DecidableEq, Repr

/-- The values that a run computed. -/
structure ClusterRun where
  computed : CellMap
  cycles : List CycleOutcome

namespace ClusterRun

/-- What a cell computes; nothing if it has no formula. -/
def compute (engine : Engine) (cell : GraphCell) (b : Binding) : Option Value :=
  if cell.failed then some (.error .invalid)
  else cell.expr.map fun e => engine.evaluate e b.source

/-! ### Cycles -/

/-- The number of a value in a cycle; a blank is 0. -/
def distanceNumber? : Value → Option Float
  | .empty => some 0.0
  | v => v.number?

/-- Evaluate the members in turn: the largest change and the new binding, or none if a member is
no number. -/
def sweep (engine : Engine) : List GraphCell → Float → Binding → Option (Float × Binding)
  | [], delta, b => some (delta, b)
  | cell :: rest, delta, b =>
    let previous := (distanceNumber? (b.value cell.coordinate)).getD 0.0
    let v := (compute engine cell b).getD .empty
    match distanceNumber? v with
    | some current =>
      sweep engine rest (Binary64.greater delta (current - previous).abs) (b.set cell.coordinate v)
    | none => none

/-- Sweep until the cycle settles, fails or has had all its sweeps, `done` of them before. -/
def settle (engine : Engine) (index : Nat) (members : List GraphCell) (threshold : Float)
    (done : Nat) : Nat → Binding → CycleOutcome × Binding
  | 0, b => (⟨index, .didNotConverge, done⟩,
      b.fill (members.map GraphCell.coordinate) (.error .noConverge))
  | left + 1, b =>
    match sweep engine members 0.0 b with
    | none => (⟨index, .nonNumeric, done + 1⟩,
        b.fill (members.map GraphCell.coordinate) (.error .circular))
    | some (delta, swept) =>
      if delta < threshold then (⟨index, .converged, done + 1⟩, swept)
      else settle engine index members threshold (done + 1) left swept

/-- The end of a cycle and the values of its members. -/
def resolveCycle (engine : Engine) (index : Nat) (members : List GraphCell)
    (iteration : Option Iteration) (b : Binding) : CycleOutcome × Binding :=
  let cells := members.map GraphCell.coordinate
  match iteration with
  | none => (⟨index, .rejected, 0⟩, b.fill cells (.error .circular))
  | some limits =>
    settle engine index members limits.threshold 0 limits.maxIterations (b.fill cells (.number 0.0))

/-! ### Runs -/

/-- A run on its way. -/
structure State where
  binding : Binding
  run : ClusterRun

/-- Take one step of the schedule. -/
def step (engine : Engine) (g : Graph) (s : State) : Step → State
  | .node id =>
    match g.node? id with
    | none => s
    | some node =>
      match compute engine node.cell s.binding with
      | none => s
      | some v =>
        { binding := s.binding.set node.coordinate v,
          run := { s.run with computed := s.run.computed.insert node.coordinate v } }
  | .cycle index =>
    match g.cycles[index]? with
    | none => s
    | some circular =>
      let members := circular.members.filterMap fun id => (g.node? id).map Node.cell
      let (outcome, b) := resolveCycle engine index members circular.iteration s.binding
      { binding := b,
        run :=
          { computed := circular.cycle.foldl (fun m c => m.insert c (b.value c)) s.run.computed,
            cycles := s.run.cycles ++ [outcome] } }

/-- Run a schedule, with overrides over the constants. -/
def ofSchedule (engine : Engine) (g : Graph) (constants overrides : CellMap)
    (schedule : List Step) : ClusterRun :=
  (schedule.foldl (step engine g) ⟨⟨constants, overrides⟩, ⟨∅, []⟩⟩).run

end ClusterRun

/-- Run the schedule of a cluster. -/
def Cluster.run (engine : Engine) (g : Graph) (constants overrides : CellMap) (c : Cluster) :
    ClusterRun :=
  ClusterRun.ofSchedule engine g constants overrides c.schedule

end Recalc
