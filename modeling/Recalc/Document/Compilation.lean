/-
Recalc/Document/Compilation.lean

Compiled workbooks in JSON documents.  Cells are keyed by their coordinates.
-/
import Recalc.Document.Graph
import Recalc.Workbook.Compilation

namespace Recalc

/-- Cells in a document, by coordinate. -/
def CellMap.toJson (m : CellMap) : Json :=
  .object (m.toList.map fun (c, v) => (c.text, v.toJson))

/-- An inferred type in a document. -/
def Inference.toJson (i : Inference) : Json :=
  .object [
    ("inferredType", .string i.inferredType),
    ("needsReview", .bool i.needsReview),
    ("observed", .array (i.observed.map fun t => .string t.tag))]

/-- A formula cell in a document. -/
def CellLogic.toJson (c : CellLogic) : Json :=
  .ofFields [
    ("coordinate", some c.coordinate.toJson),
    ("role", some (.string c.role.tag)),
    ("source", some (.string c.source)),
    ("formula", c.formula.map .string),
    ("ast", c.expr.map Expr.toJson),
    ("value", some c.value.toJson),
    ("inferred", some c.inferred.toJson),
    ("depth", c.depth.map .nat)]

/-- A test in a document. -/
def TestCase.toJson (t : TestCase) : Json :=
  .object [
    ("id", .string t.id),
    ("inputs", t.inputs.toJson),
    ("expectedOutputs", t.expectedOutputs.toJson),
    ("origin", .string t.origin.tag)]

/-- An unsupported call in a document. -/
def UnsupportedFeature.toJson (f : UnsupportedFeature) : Json :=
  .object [
    ("cell", f.cell.toJson),
    ("function", .string f.call.function),
    ("position", .nat f.call.position),
    ("reason", .string f.call.reason.tag),
    ("impacted", .coordinates f.impacted)]

/-- The end of a cycle in a document. -/
def CycleOutcome.toJson (o : CycleOutcome) : Json :=
  .object [
    ("cycle", .nat o.cycle),
    ("status", .string o.status.tag),
    ("iterations", .nat o.iterations)]

/-- Words about a cell in a document. -/
def CellAnnotation.toJson (a : CellAnnotation) : Json :=
  .ofFields [("name", some (.string a.name)), ("description", a.description.map .string)]

/-- Words about a cluster in a document. -/
def Enrichment.toJson (e : Enrichment) : Json :=
  .ofFields [
    ("ruleName", e.ruleName.map .string),
    ("cells", some (.object (e.cells.map fun (c, a) => (c.text, a.toJson))))]

/-- A cluster's logic in a document; cycles are left out if there are none. -/
def ClusterLogic.toJson (c : ClusterLogic) : Json :=
  .ofFields [
    ("clusterId", some (.nat c.clusterId)),
    ("inputs", some (.coordinates c.inputs)),
    ("outputs", some (.coordinates c.outputs)),
    ("cells", some (.object (c.cells.map fun cell => (cell.coordinate.text, cell.toJson)))),
    ("tests", some (.array (c.tests.map TestCase.toJson))),
    ("unsupportedFeatures", some (.array (c.unsupportedFeatures.map UnsupportedFeature.toJson))),
    ("cycles", if c.cycles.isEmpty then none else some (.array (c.cycles.map CycleOutcome.toJson))),
    ("enrichment", c.enrichment.map Enrichment.toJson)]

/-- A compiled workbook in a document. -/
def Compilation.toJson (c : Compilation) : Json :=
  .object [
    ("graph", c.graph.toJson),
    ("results", .array (c.results.map ClusterLogic.toJson)),
    ("errors", c.errors.toJson)]

end Recalc
