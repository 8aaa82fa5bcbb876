/-
Recalc/Workbook/Summary.lean

A compilation in a few lines for people: its size, each cluster with the cells to look at,
each issue, and whether it can proceed.
-/
import Recalc.Workbook.Compilation

namespace Recalc

/-- The kind of an issue as a word of its own. -/
def IssueKind.name (k : IssueKind) : String := k.tag.capitalize

/-- The lines about an issue of some weight. -/
def Issue.lines (weight : String) (i : Issue) : List String :=
  s!"  [{weight}] {i.kind.name} at {i.cell.text}: {i.message}" ::
    if i.impacted.isEmpty then [] else [s!"      impacts {i.impacted.length} cell(s)"]

/-- The lines about a cluster. -/
def ClusterLogic.lines (c : ClusterLogic) : List String :=
  (s!"  cluster {c.clusterId}: {c.inputs.length} inputs, {c.outputs.length} outputs, " ++
    s!"{c.cells.length} formulas, {c.tests.length} tests") ::
    (c.cells.filter (·.inferred.needsReview)).map fun cell =>
      s!"    review {cell.coordinate.text} has mixed result types"

/-- The lines about the reach of all issues. -/
def ErrorReport.verdict (r : ErrorReport) : List String :=
  let share := fixedText 1 r.percentageAffected
  let blocked := ", ".intercalate (r.blockedOutputs.map Coordinate.text)
  [s!"Impact {r.affectedCells.length}/{r.totalCells} cells affected ({share}%)",
    if r.canProceed then "Ready for code generation"
    else s!"Cannot proceed: blocked outputs: {blocked}"]

/-- The lines about a compilation. -/
def Compilation.summary (c : Compilation) : List String :=
  let g := c.graph
  (s!"Compiled {g.nodes.size} cells, {g.edges.length} edges, {g.clusters.length} clusters, " ++
    s!"{g.cycles.length} cycles") ::
    c.results.flatMap ClusterLogic.lines ++
    c.errors.criticalErrors.flatMap (Issue.lines "critical") ++
    c.errors.warnings.flatMap (Issue.lines "warning") ++
    c.errors.verdict

end Recalc
