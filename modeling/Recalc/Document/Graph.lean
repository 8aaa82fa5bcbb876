/-
Recalc/Document/Graph.lean

Dependency graphs and reports in JSON documents.
-/
import Recalc.Document.Expr
import Recalc.Workbook.Report

namespace Recalc

/-- Naturals in a document. -/
def Json.nats (ns : List Nat) : Json := .array (ns.map .nat)

/-- Coordinates in a document. -/
def Json.coordinates (cs : List Coordinate) : Json := .array (cs.map Coordinate.toJson)

/-- An optional natural, `null` if it is missing. -/
def Json.natOrNull : Option Nat → Json
  | some n => .nat n
  | none => .null

/-- Limits of repetition in a document. -/
def Iteration.toJson (i : Iteration) : Json :=
  .object [("maxIterations", .nat i.maxIterations), ("convergenceThreshold", .float i.threshold)]

/-- What stays below `2 ^ 32` is a number of rounds. -/
def Iteration.countLimit : Nat := 0x100000000

/-- Read limits of repetition. -/
def Iteration.ofJson? (j : Json) : Option Iteration := do
  match ← j.record? ["maxIterations", "convergenceThreshold"] with
  | [most, threshold] =>
    return ⟨← Json.required? (Json.natBelow? Iteration.countLimit) most,
      ← Json.required? Json.float? threshold⟩
  | _ => none

/-- A node in a document. -/
def Node.toJson (n : Node) : Json :=
  .ofFields [
    ("id", some (.nat n.id)),
    ("coordinate", some n.coordinate.toJson),
    ("role", some (.string n.role.tag)),
    ("ast", n.cell.expr.map Expr.toJson),
    ("inDegree", some (.nat n.inDegree)),
    ("outDegree", some (.nat n.outDegree)),
    ("depth", some (.natOrNull n.depth)),
    ("clusterId", some (.nat n.cluster)),
    ("failed", some (.bool n.cell.failed)),
    ("implicit", some (.bool n.implicit)),
    ("iterative", n.cell.iteration.map Iteration.toJson),
    ("precedents", some (.nats n.precedents)),
    ("dependents", some (.nats n.dependents))]

/-- An edge in a document. -/
def Edge.toJson (e : Edge) : Json :=
  .object [("from", .nat e.source), ("to", .nat e.target), ("kind", .string e.kind.tag)]

/-- A step of a schedule in a document. -/
def Step.toJson : Step → Json
  | .node id => .tagged "node" (.nat id)
  | .cycle index => .tagged "cycle" (.nat index)

/-- A cycle in a document. -/
def CircularRef.toJson (c : CircularRef) : Json :=
  .ofFields [
    ("cycle", some (.coordinates c.cycle)),
    ("members", some (.nats c.members)),
    ("classification", some (.string (if c.iteration.isSome then "iterative" else "error"))),
    ("maxIterations", c.iteration.map fun i => .nat i.maxIterations),
    ("convergenceThreshold", c.iteration.map fun i => .float i.threshold)]

/-- A cluster in a document. -/
def Cluster.toJson (c : Cluster) : Json :=
  .object [
    ("id", .nat c.id),
    ("inputs", .nats c.inputs),
    ("outputs", .nats c.outputs),
    ("intermediates", .nats c.intermediates),
    ("schedule", .array (c.schedule.map Step.toJson))]

/-- A graph in a document. -/
def Graph.toJson (g : Graph) : Json :=
  .object [
    ("nodes", .array (g.nodes.toList.map Node.toJson)),
    ("edges", .array (g.edges.map Edge.toJson)),
    ("topologicalOrder", .nats g.topologicalOrder),
    ("schedule", .array (g.schedule.map Step.toJson)),
    ("circularRefs", .array (g.cycles.map CircularRef.toJson)),
    ("clusters", .array (g.clusters.map Cluster.toJson))]

/-- An issue in a document. -/
def Issue.toJson (i : Issue) : Json :=
  .ofFields [
    ("kind", some (.string i.kind.tag)),
    ("cell", some i.cell.toJson),
    ("message", some (.string i.message)),
    ("position", i.position.map .nat),
    ("impacted", some (.coordinates i.impacted)),
    ("blockedOutputs", some (.coordinates i.blockedOutputs))]

/-- A report in a document. -/
def ErrorReport.toJson (r : ErrorReport) : Json :=
  .object [
    ("canProceed", .bool r.canProceed),
    ("criticalErrors", .array (r.criticalErrors.map Issue.toJson)),
    ("warnings", .array (r.warnings.map Issue.toJson)),
    ("affectedCells", .coordinates r.affectedCells),
    ("impactAnalysis", .object [
      ("totalCells", .nat r.totalCells),
      ("affectedCells", .nat r.affectedCells.length),
      ("percentageAffected", .float r.percentageAffected),
      ("blockedOutputs", .coordinates r.blockedOutputs)])]

end Recalc
